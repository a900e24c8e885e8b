import FactoryThing.SecureChannel.Receive
import FactoryThing.Encoding.Encode

/-!
# Sent chunks

`UA_SecureChannel_sendBinaryMessage` encodes a message with `UA_SecureChannel_sendChunk` as the
exchange callback of the encoder (`src/ua_securechannel.c:121-250`). Send buffers are available:
`getSendBuffer` answers with a buffer of the length it is asked for, and `send` takes the bytes of
the chunk and releases the buffer, which leaves a null pointer of length zero in its place
(`include/ua_connection.h:71-84`, `plugins/ua_network_tcp.c:96-119`, `276-280`).
-/

namespace FactoryThing.SecureChannel

open FactoryThing.Encoding

def secureMessageHeaderLength : Nat := 24

/-- The limits of a connection that the sender looks at: `localConf.sendBufferSize`, and
`maxMessageSize` and `maxChunkCount` of `remoteConf`, where zero is unlimited. -/
structure SendConfig where
  sendBufferSize : UInt32
  maxMessageSize : UInt32
  maxChunkCount : UInt32
  deriving DecidableEq

/-- `UA_ChunkInfo` (`ua_securechannel.h:32-41`). -/
structure ChunkInfo where
  requestId : UInt32
  messageType : MessageType
  chunksSoFar : UInt16
  messageSizeSoFar : Nat
  final : Bool
  errorCode : StatusCode
  deriving DecidableEq

/-- What sending chunks changes: the chunk info, the sequence number of the channel, and the chunks
the connection was given. -/
structure SendState where
  ci : ChunkInfo
  sendSequenceNumber : UInt32
  sent : List (List UInt8)
  deriving DecidableEq

def field (v : UInt32) : List UInt8 := LittleEndian.toBytes 4 v.toNat

/-- A chunk: the conversation header, the symmetric security header, the sequence header and the
payload. -/
def chunkBytes (messageTypeAndChunkType : UInt32) (token : SecurityToken)
    (sequenceNumber requestId : UInt32) (payload : List UInt8) : List UInt8 :=
  field messageTypeAndChunkType ++
    field (UInt32.ofNat (payload.length + secureMessageHeaderLength)) ++
    field token.channelId ++ field token.tokenId ++ field sequenceNumber ++ field requestId ++
      payload

/-- The payload of an abort chunk: the error code and a null string, as far as they fit into a
buffer of `length` bytes behind the headers (`ua_securechannel.c:153-162`). -/
def abortPayload (length : Nat) (errorCode : StatusCode) : List UInt8 :=
  (if 4 ≤ length then field errorCode else []) ++ (if 8 ≤ length then field 0xFFFFFFFF else [])

/-- The limits of the peer are exceeded by one more chunk with `offset` bytes
(`ua_securechannel.c:137-142`). -/
def exceedsLimits (conf : SendConfig) (messageSizeSoFar : Nat) (chunksSoFar : UInt16)
    (offset : Nat) : Bool :=
  (messageSizeSoFar + offset > conf.maxMessageSize.toNat ∧ conf.maxMessageSize > 0) ∨
    ((chunksSoFar + 1).toUInt32 > conf.maxChunkCount ∧ conf.maxChunkCount > 0)

/-- `UA_SecureChannel_sendChunk` (`ua_securechannel.c:125-194`): `run` is what lies in the buffer
before the offset and `dst` the length of the buffer behind the place for the headers. -/
def sendChunk (conf : SendConfig) (token : SecurityToken) : ExchangeEncodeBuffer SendState :=
  fun st run dst =>
    match dst with
    | none => .error Fault.nullDeref
    | some length =>
      let errorCode :=
        if exceedsLimits conf st.ci.messageSizeSoFar st.ci.chunksSoFar
            (run.length + secureMessageHeaderLength) then
          StatusCode.badResponseTooLarge
        else st.ci.errorCode
      let aborts : Bool := errorCode ≠ StatusCode.good
      let chunkType : ChunkType :=
        if aborts then .abort else if st.ci.final then .final else .intermediate
      let payload := if aborts then abortPayload length errorCode else run
      let final := st.ci.final || aborts
      let sequenceNumber := st.sendSequenceNumber + 1
      let chunk := chunkBytes (st.ci.messageType + chunkType.toUInt32) token sequenceNumber
        st.ci.requestId payload
      let ci := { st.ci with
        chunksSoFar := st.ci.chunksSoFar + 1
        messageSizeSoFar :=
          st.ci.messageSizeSoFar + (payload.length + secureMessageHeaderLength)
        final
        errorCode }
      .ok (errorCode, { ci, sendSequenceNumber := sequenceNumber, sent := st.sent ++ [chunk] },
        if final then none else some (conf.sendBufferSize.toNat - secureMessageHeaderLength))

/-- The message type by the encoding id of the content (`ua_securechannel.c:227-232`). -/
def messageTypeOf (binaryEncodingId : UInt16) : MessageType :=
  if binaryEncodingId = 446 ∨ binaryEncodingId = 449 then messageTypeOpn
  else if binaryEncodingId = 452 ∨ binaryEncodingId = 455 then messageTypeClo
  else messageTypeMsg

/-- The chunk info at the start of a message (`ua_securechannel.c:220-232`). -/
def initialChunkInfo (requestId : UInt32) (contentType : TypeInfo) : ChunkInfo where
  requestId := requestId
  messageType := messageTypeOf contentType.binaryEncodingId
  chunksSoFar := 0
  messageSizeSoFar := 0
  final := false
  errorCode := StatusCode.good

/-- The type id that is encoded in front of the content; a failure is ignored
(`ua_securechannel.c:214-218`). -/
def encodeTypeId (contentType : TypeInfo) (length : Nat) : List UInt8 :=
  match encodeBinary 1 none (.nodeId (encodingTypeId contentType)) () length [] with
  | .ok (_, s) => s.pos.before
  | .error _ => []

/-- The end of `UA_SecureChannel_sendBinaryMessage`, after the content was encoded
(`ua_securechannel.c:237-249`): an abort message, if none was sent, or the final chunk. -/
def finishMessage (conf : SendConfig) (token : SecurityToken) (retval : StatusCode)
    (s : EncodeState SendState) : Except Fault (StatusCode × SendState) :=
  if retval ≠ StatusCode.good then
    if s.handle.ci.final then .ok (retval, s.handle)
    else
      match sendChunk conf token { s.handle with ci.errorCode := retval } s.pos.before s.encodeBuf
        with
      | .ok (_, st, _) => .ok (retval, st)
      | .error e => .error e
  else
    match sendChunk conf token { s.handle with ci.final := true } s.pos.before s.encodeBuf with
    | .ok (status, st, _) => .ok (status, st)
    | .error e => .error e

/-- `UA_SecureChannel_sendBinaryMessage` (`ua_securechannel.c:196-250`) on a channel with the
security token `token` and the sequence number `sendSequenceNumber`. -/
def sendBinaryMessage (fuel : Nat) (conf : SendConfig) (token : SecurityToken)
    (sendSequenceNumber requestId : UInt32) (content : Value) (contentType : TypeInfo) :
    Except Fault (StatusCode × SendState) :=
  let length := conf.sendBufferSize.toNat - secureMessageHeaderLength
  match encodeBinary fuel (some (sendChunk conf token)) content
      { ci := initialChunkInfo requestId contentType, sendSequenceNumber, sent := [] } length
      (encodeTypeId contentType length) with
  | .ok (retval, s) => finishMessage conf token retval s
  | .error e => .error e

/-- The 32-bit field of a chunk at an offset. -/
def fieldAt (chunk : List UInt8) (offset : Nat) : UInt32 :=
  UInt32.ofNat (LittleEndian.toNat ((chunk.drop offset).take 4))

def chunkTypeField (chunk : List UInt8) : Option ChunkType := chunkTypeOf (fieldAt chunk 0)

/-- The size field of the conversation header. -/
def sizeField (chunk : List UInt8) : UInt32 := fieldAt chunk 4

/-- The sequence number of the sequence header. -/
def sequenceNumberField (chunk : List UInt8) : UInt32 := fieldAt chunk 16

@[simp] theorem length_field (v : UInt32) : (field v).length = 4 := by
  simp [field]

theorem fieldAt_append {front : List UInt8} {offset : Nat} (h : front.length = offset) (v : UInt32)
    (rest : List UInt8) : fieldAt (front ++ (field v ++ rest)) offset = v := by
  have hlt : v.toNat < 256 ^ 4 := v.toNat_lt
  rw [fieldAt, List.drop_left' h, List.take_left' (length_field v), field,
    LittleEndian.toNat_toBytes_of_lt hlt]
  exact UInt32.ofNat_toNat

section Fields

variable (mt : UInt32) (token : SecurityToken) (sequenceNumber requestId : UInt32)
  (payload : List UInt8)

theorem length_chunkBytes : (chunkBytes mt token sequenceNumber requestId payload).length =
    payload.length + secureMessageHeaderLength := by
  simp [chunkBytes, secureMessageHeaderLength]
  omega

theorem chunkTypeField_chunkBytes :
    chunkTypeField (chunkBytes mt token sequenceNumber requestId payload) = chunkTypeOf mt := by
  have h : ([] : List UInt8).length = 0 := rfl
  have hfield := fieldAt_append h mt
  simp only [chunkTypeField, chunkBytes, List.append_assoc, List.nil_append] at hfield ⊢
  rw [hfield]

theorem sizeField_chunkBytes :
    sizeField (chunkBytes mt token sequenceNumber requestId payload) =
      UInt32.ofNat (payload.length + secureMessageHeaderLength) := by
  exact fieldAt_append (length_field mt) _ _

theorem sequenceNumberField_chunkBytes :
    sequenceNumberField (chunkBytes mt token sequenceNumber requestId payload) =
      sequenceNumber := by
  have h : (field mt ++ field (UInt32.ofNat (payload.length + secureMessageHeaderLength)) ++
      field token.channelId ++ field token.tokenId).length = 16 := by
    simp
  have hfield := fieldAt_append h sequenceNumber (field requestId ++ payload)
  simp only [sequenceNumberField, chunkBytes, List.append_assoc] at hfield ⊢
  rw [hfield]

end Fields

theorem chunkTypeOf_messageType (binaryEncodingId : UInt16) (t : ChunkType) :
    chunkTypeOf (messageTypeOf binaryEncodingId + t.toUInt32) = some t := by
  have hall : ∀ m ∈ [messageTypeOpn, messageTypeClo, messageTypeMsg],
      chunkTypeOf (m + t.toUInt32) = some t := by
    intro m hm
    simp only [List.mem_cons, List.not_mem_nil, or_false] at hm
    cases t with
    | final | intermediate | abort => rcases hm with rfl | rfl | rfl <;> rfl
  apply hall
  unfold messageTypeOf
  split
  · simp
  · split
    · simp
    · simp

end FactoryThing.SecureChannel
