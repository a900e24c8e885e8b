import FactoryThing.Encoding.DecodeSafety
import FactoryThing.SecureChannel.ChunkLoop
import FactoryThing.Transport.CompleteMessages

/-!
# The services of a client

`__UA_Client_Service` (`src/client/ua_client.c:740-809`) sends a request and waits for the response.
The wait loop takes one receive buffer after the other apart, and `processServiceResponse` is called
for every message in it. What the network layer receives until the deadline is given.
-/

namespace FactoryThing.Client

open Encoding SecureChannel

/-! ## Responses -/

/-- `UA_ResponseHeader` (`tools/schema/Opc.Ua.Types.bsd:532-541`). -/
def responseHeaderType : DataType :=
  .structure ⟨⟨0, .numeric 392⟩, 136, 394⟩ false (by decide)
    (.scalar (.builtin .dateTime) (.scalar (.builtin .uint32) (.scalar (.builtin .statusCode)
      (.scalar (.builtin .diagnosticInfo) (.array (.builtin .string)
        (.scalar (.builtin .extensionObject) .nil))))))

/-- `UA_ServiceFault`. -/
def serviceFaultType : DataType :=
  .structure ⟨⟨0, .numeric 395⟩, 136, 397⟩ false (by decide) (.scalar responseHeaderType .nil)

/-- The description of a response: its first member is the header. -/
structure ResponseType where
  info : TypeInfo
  memSize_pos : 0 < info.memSize.toNat
  rest : MemberTypes

def ResponseType.type (t : ResponseType) : DataType :=
  .structure t.info false t.memSize_pos (.scalar responseHeaderType t.rest)

/-- `respHeader->serviceResult = retval`. -/
def setServiceResult (retval : StatusCode) : Value → Value
  | .structure (.scalar (.structure (.scalar timestamp (.scalar requestHandle
      (.scalar _ others)))) rest) =>
    .structure (.scalar (.structure (.scalar timestamp (.scalar requestHandle
      (.scalar (.uint32 retval) others)))) rest)
  | response => response

/-- A ServiceFault has been decoded into a response: it has no more than the header. -/
def setHeader : Value → Value → Value
  | .structure (.scalar header _), .structure (.scalar _ rest) => .structure (.scalar header rest)
  | _, response => response

/-- `UA_decodeBinary` with as much recursion as it can need (`decodeBinary_eq`). -/
def decodeAt (env : DecodeEnv) (src : List UInt8) (offset : Nat) (type : DataType) : DecodeResult :=
  match decodeBinary env (src.length + 1) src offset type with
  | .ok (result, _) => result
  | .error _ => ⟨StatusCode.badInternalError, offset, zeroValue type⟩

/-- `struct ResponseDescription` (`:659-665`), with the response in place of the pointer to it. -/
structure ResponseDescription where
  processed : Bool
  requestId : UInt32
  response : Value
  responseType : ResponseType

/-- The code behind `finish` (`:724-737`). -/
def finishResponse (retval : StatusCode) (rd : ResponseDescription) : ResponseDescription :=
  if retval = StatusCode.good then rd
  else
    let retval :=
      if retval = StatusCode.badEncodingLimitsExceeded then StatusCode.badResponseTooLarge
      else retval
    { rd with response := setServiceResult retval rd.response }

/-- `UA_NodeId_equal` with a numeric NodeId of namespace 0. -/
def isTypeId (responseId : Value) (binaryEncodingId : UInt16) : Bool :=
  match responseId with
  | .nodeId n => nodeIdEqual n ⟨0, .numeric binaryEncodingId.toUInt32⟩
  | _ => false

/-- `processServiceResponse` (`:667-738`). -/
def processServiceResponse (env : DecodeEnv) (rd : ResponseDescription) :
    Callback → ResponseDescription
  | .error code _ => finishResponse code { rd with processed := true }
  | .message messageType requestId message =>
    let rd := { rd with processed := true }
    if messageType ≠ messageTypeMsg then
      finishResponse StatusCode.badTcpMessageTypeInvalid rd
    -- "Todo: we need to demux async responses since a publish responses may come at any time"
    else if requestId ≠ rd.requestId then
      finishResponse StatusCode.badInternalError rd
    else
      let responseId := decodeAt env message 0 (.builtin .nodeId)
      if responseId.status ≠ StatusCode.good then
        finishResponse responseId.status rd
      else if isTypeId responseId.dst rd.responseType.info.binaryEncodingId then
        let decoded := decodeAt env message responseId.offset rd.responseType.type
        finishResponse decoded.status { rd with response := decoded.dst }
      else if isTypeId responseId.dst serviceFaultType.info.binaryEncodingId then
        -- no custom types for a ServiceFault
        let fault :=
          decodeAt { env with customTypes := [] } message responseId.offset serviceFaultType
        finishResponse fault.status { rd with response := setHeader fault.dst rd.response }
      else finishResponse StatusCode.badInternalError rd

/-- What `connection->recv` returns. -/
structure Received where
  status : StatusCode
  packet : List UInt8
  deriving DecidableEq

/-- `UA_Connection_receiveChunksBlocking` (`src/ua_connection.c:156-181`): the complete chunks, or
the status when there are none, and what is received later. The deadline is behind the last
packet. -/
def receiveChunksBlocking (connection : Transport.Connection) :
    List Received → Transport.Connection × Except StatusCode (List UInt8) × List Received
  | [] => (connection, .error StatusCode.goodNonCriticalTimeout, [])
  | received :: later =>
    let result := Transport.completeMessages connection received.packet false
    let retval := received.status ||| result.status
    if retval ≠ StatusCode.good then (result.connection, .error retval, later)
    else if result.message.length > 0 then (result.connection, .ok result.message, later)
    else receiveChunksBlocking result.connection later

structure Waiting where
  connection : Transport.Connection
  channel : Channel
  rd : ResponseDescription

/-- `UA_SecureChannel_processChunks` calls `processServiceResponse` with `rd`. -/
def responseApplication (env : DecodeEnv) : Application Waiting where
  channel s := s.channel
  setChannel s channel := { s with channel }
  callback s callback := { s with rd := processServiceResponse env s.rd callback }

/-- The wait loop (`:784-805`); `none` when a buffer is taken apart without end, or the program dies
of it. -/
def retrieveResponse (env : DecodeEnv) : Nat → Waiting → List Received → Option Waiting
  | 0, _, _ => none
  | fuel + 1, s, received =>
    match receiveChunksBlocking s.connection received with
    | (connection, .error retval, _) =>
      some { s with
        connection
        rd := { s.rd with response := setServiceResult retval s.rd.response } }
    | (connection, .ok reply, later) =>
      match runChunks (responseApplication env) reply (reply.length + 1) { s with connection } 0
        with
      | (_, none) => none
      | (_, some .doubleFree) => none
      | (s, some (.status _)) =>
          if s.rd.processed then some s else retrieveResponse env fuel s later

/-- `UA_ClientState`. -/
inductive ClientState where
  | ready
  | connected
  | faulted
  | errored
  deriving DecidableEq

/-- `UA_Client`, as far as a service call goes by it. -/
structure UaClient where
  connection : Transport.Connection
  channel : Channel
  requestHandle : UInt32
  requestId : UInt32
  state : ClientState

/-- What a call does besides waiting: the renewal of the channel and the sending of the request with
its id. -/
structure Sending where
  renewSecureChannel : UaClient → UaClient × StatusCode
  sendBinaryMessage : UaClient → UInt32 → UaClient × StatusCode

/-- The client once the request has been sent (`:751-776`), with the id of the request; else the
status of the response. -/
def sendRequest (sending : Sending) (client : UaClient) : UaClient × Except StatusCode UInt32 :=
  let (client, retval) := sending.renewSecureChannel client
  if retval ≠ StatusCode.good then ({ client with state := .errored }, .error retval)
  else
    let client := { client with
      state := .connected
      requestHandle := client.requestHandle + 1
      requestId := client.requestId + 1 }
    let (client, retval) := sending.sendBinaryMessage client client.requestId
    if retval ≠ StatusCode.good then
      ({ client with state := .faulted },
        .error (if retval = StatusCode.badEncodingLimitsExceeded then StatusCode.badRequestTooLarge
          else retval))
    else (client, .ok client.requestId)

/-- The description of the response before anything has been received. -/
def freshDescription (requestId : UInt32) (responseType : ResponseType) : ResponseDescription :=
  ⟨false, requestId, zeroValue responseType.type, responseType⟩

/-- `__UA_Client_Service` (`:740-809`): the response, `none` when the call does not return. -/
def clientService (env : DecodeEnv) (sending : Sending) (client : UaClient)
    (responseType : ResponseType) (received : List Received) : Option (UaClient × Value) :=
  match sendRequest sending client with
  | (client, .error retval) =>
    some (client, setServiceResult retval (zeroValue responseType.type))
  | (client, .ok requestId) =>
    match retrieveResponse env (received.length + 1)
        ⟨client.connection, client.channel, freshDescription requestId responseType⟩ received with
    | none => none
    | some s => some ({ client with connection := s.connection, channel := s.channel },
        s.rd.response)

end FactoryThing.Client
