import FactoryThing.SecureChannel.Receive

/-!
# Complete messages of a connection

`UA_Connection_completeMessages` (`src/ua_connection.c:16-154`) cuts what the network layer received
at the end of the last complete chunk and keeps the rest for the next time. Allocations succeed, and
`releaseRecvBuffer` empties the buffer it is given.
-/

namespace FactoryThing.Transport

open FactoryThing.SecureChannel

def messageTypeHel : MessageType := 0x4C4548
def messageTypeAck : MessageType := 0x4B4341

/-- The message types `completeChunksUntil` recognizes. -/
def messageTypes : List MessageType :=
  [messageTypeMsg, messageTypeErr, messageTypeOpn, messageTypeHel, messageTypeAck, messageTypeClo]

/-- The part of `UA_Connection` that received bytes go through. -/
structure Connection where
  recvBufferSize : UInt32
  incompleteMessage : List UInt8
  deriving DecidableEq

/-- `msgtype`: the three bytes at an offset. -/
def msgtypeAt (message : List UInt8) (offset : Nat) : MessageType :=
  match message.drop offset with
  | b0 :: b1 :: b2 :: _ => b0.toUInt32 + (b1.toUInt32 <<< 8) + (b2.toUInt32 <<< 16)
  | _ => 0

/-- `completeChunksUntil` (`ua_connection.c:40-81`) from `completeUntil` on: the end of the last
complete chunk and `garbage_end`. -/
def completeChunksUntil (recvBufferSize : UInt32) (message : List UInt8) (completeUntil : Nat) :
    Nat × Bool :=
  if 8 ≤ message.length - completeUntil then
    if msgtypeAt message completeUntil ∉ messageTypes then (completeUntil, true)
    else
      match readUInt32 message (completeUntil + 4) with
      | none => (completeUntil, true)
      | some (chunkLength, _) =>
          if chunkLength < 16 ∨ chunkLength > recvBufferSize then (completeUntil, true)
          else if chunkLength.toNat + completeUntil > message.length then (completeUntil, false)
          else completeChunksUntil recvBufferSize message (completeUntil + chunkLength.toNat)
  else (completeUntil, false)
termination_by message.length - completeUntil
decreasing_by
  have hpos : ¬ chunkLength.toNat < 16 := fun hlt => ‹¬ (_ ∨ _)› (Or.inl hlt)
  omega

/-- What the functions below pass on: the connection, `message`, `realloced` and a status. -/
structure Result where
  connection : Connection
  message : List UInt8
  realloced : Bool
  status : StatusCode
  deriving DecidableEq

/-- `prependIncomplete` (`ua_connection.c:16-38`). -/
def prependIncomplete (connection : Connection) (message : List UInt8) : Result where
  connection := { connection with incompleteMessage := [] }
  message := connection.incompleteMessage ++ message
  realloced := true
  status := StatusCode.good

/-- `separateIncompleteChunk` (`ua_connection.c:83-122`). -/
def separateIncompleteChunk (connection : Connection) (message : List UInt8)
    (completeUntil : Nat) (garbageEnd realloced : Bool) : Result :=
  if garbageEnd then
    if completeUntil = 0 then ⟨connection, message, realloced, StatusCode.badDecodingError⟩
    else ⟨connection, message.take completeUntil, realloced, StatusCode.good⟩
  else if completeUntil = 0 then
    -- copied and released, or moved as it is: the message is empty afterwards either way
    ⟨{ connection with incompleteMessage := message }, [], true, StatusCode.good⟩
  else
    ⟨{ connection with incompleteMessage := message.drop completeUntil },
      message.take completeUntil, realloced, StatusCode.good⟩

/-- `UA_Connection_completeMessages` (`ua_connection.c:124-154`). -/
def completeMessages (connection : Connection) (message : List UInt8) (realloced : Bool) :
    Result :=
  let start : Result :=
    if connection.incompleteMessage.length > 0 then prependIncomplete connection message
    else ⟨connection, message, realloced, StatusCode.good⟩
  let (completeUntil, garbageEnd) :=
    completeChunksUntil connection.recvBufferSize start.message 0
  if completeUntil < start.message.length then
    let result := separateIncompleteChunk start.connection start.message completeUntil garbageEnd
      start.realloced
    if result.status ≠ StatusCode.good then { result with message := [] } else result
  else start

/-- Repeated calls: the packets received one after the other, with the flag each call is given. -/
def receivePackets (connection : Connection) :
    List (List UInt8 × Bool) → Connection × List Result
  | [] => (connection, [])
  | (packet, realloced) :: rest =>
      let result := completeMessages connection packet realloced
      let (connection, results) := receivePackets result.connection rest
      (connection, result :: results)

end FactoryThing.Transport
