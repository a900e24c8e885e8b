import FactoryThing.SecureChannel.ChunkSequence
import FactoryThing.Encoding.Placement
import FactoryThing.Transport.CompleteMessages

/-!
# Negotiated buffer sizes

`processHEL` takes over the sizes a peer announces as they are (`src/server/ua_server_binary.c:
221-268`). What is sent on the connection afterwards lies in buffers of the negotiated
`sendBufferSize`: the acknowledge message, the answer of `processOPN` (`:323-371`) and the chunks of
`UA_SecureChannel_sendBinaryMessage`. The answer of `processOPN` stays in its buffer whatever the
size is. The acknowledge message is passed on with 28 bytes, and the chunks hide a header of 24
bytes in front of the payload, which both take no smaller buffer. Even in a large buffer a response
leaves it when an element is torn (`negotiated_inBounds`). Allocations succeed here.
-/

namespace FactoryThing.SecureChannel

open FactoryThing.Encoding Stateful

/-- `UA_ConnectionConfig`. -/
structure ConnectionConfig where
  protocolVersion : UInt32
  sendBufferSize : UInt32
  recvBufferSize : UInt32
  maxMessageSize : UInt32
  maxChunkCount : UInt32
  deriving DecidableEq

/-- `UA_TcpHelloMessage` without the endpoint URL, which nothing reads. -/
structure HelloMessage where
  protocolVersion : UInt32
  receiveBufferSize : UInt32
  sendBufferSize : UInt32
  maxMessageSize : UInt32
  maxChunkCount : UInt32
  deriving DecidableEq

/-- The two configurations of a `UA_Connection`. -/
structure ConnectionConfigs where
  localConf : ConnectionConfig
  remoteConf : ConnectionConfig
  deriving DecidableEq

/-- `processHEL` parameterizes the connection (`ua_server_binary.c:229-238`). -/
def negotiate (connection : ConnectionConfigs) (helloMessage : HelloMessage) :
    ConnectionConfigs where
  localConf := { connection.localConf with
    sendBufferSize :=
      if connection.localConf.sendBufferSize > helloMessage.receiveBufferSize then
        helloMessage.receiveBufferSize
      else connection.localConf.sendBufferSize
    recvBufferSize :=
      if connection.localConf.recvBufferSize > helloMessage.sendBufferSize then
        helloMessage.sendBufferSize
      else connection.localConf.recvBufferSize }
  remoteConf :=
    { protocolVersion := helloMessage.protocolVersion
      sendBufferSize := helloMessage.sendBufferSize
      recvBufferSize := helloMessage.receiveBufferSize
      maxMessageSize := helloMessage.maxMessageSize
      maxChunkCount := helloMessage.maxChunkCount }

/-- What `UA_SecureChannel_sendChunk` reads of the configurations. -/
def sendConfig (connection : ConnectionConfigs) : SendConfig where
  sendBufferSize := connection.localConf.sendBufferSize
  maxMessageSize := connection.remoteConf.maxMessageSize
  maxChunkCount := connection.remoteConf.maxChunkCount

/-- `ServerNetworkLayerGetSendBuffer` (`plugins/ua_network_tcp.c:275-280`): the length of the
buffer, none when the peer does not receive as much. -/
def getSendBuffer (connection : ConnectionConfigs) (length : UInt32) : Option Nat :=
  if length > connection.remoteConf.recvBufferSize then none else some length.toNat

theorem negotiate_sendBufferSize (connection : ConnectionConfigs) (helloMessage : HelloMessage) :
    (negotiate connection helloMessage).localConf.sendBufferSize.toNat =
      min connection.localConf.sendBufferSize.toNat helloMessage.receiveBufferSize.toNat := by
  unfold negotiate
  dsimp only
  split
  · next h =>
    have hlt := UInt32.lt_iff_toNat_lt.mp h
    omega
  · next h =>
    have hle := UInt32.le_iff_toNat_le.mp (UInt32.not_lt.mp h)
    omega

theorem getSendBuffer_negotiate (connection : ConnectionConfigs) (helloMessage : HelloMessage) :
    getSendBuffer (negotiate connection helloMessage)
        (negotiate connection helloMessage).localConf.sendBufferSize =
      some (negotiate connection helloMessage).localConf.sendBufferSize.toNat := by
  apply if_neg
  apply UInt32.not_lt.mpr
  show (if _ then _ else _ : UInt32) ≤ helloMessage.receiveBufferSize
  split
  · exact UInt32.le_refl _
  · next h => exact UInt32.not_lt.mp h

/-- What happens to a buffer: what is written to it, with the offsets, and the length that is
passed to `connection->send`. -/
structure Transmission where
  buffer : Nat
  writes : List (Nat × List UInt8)
  length : Option Nat
  deriving DecidableEq

/-- All bytes are written inside the buffer, and no more than the buffer is sent. -/
def Transmission.InBounds (t : Transmission) : Prop :=
  (∀ w ∈ t.writes, w.2 ≠ [] → w.1 + w.2.length ≤ t.buffer) ∧ ∀ n ∈ t.length, n ≤ t.buffer

/-- `UA_encodeBinary` without a callback, at the offset behind `before`. -/
def encodeInto (buffer : Nat) (src : Value) (before : List UInt8) :
    Except Fault (StatusCode × List UInt8) :=
  match encodeBinary 1 none src () buffer before with
  | .ok (retval, s) => .ok (retval, s.pos.before)
  | .error e => .error e

def uint32Members : List UInt32 → Members
  | [] => .nil
  | v :: vs => .scalar (.uint32 v) (uint32Members vs)

def uint32Structure (fields : List UInt32) : Value := .structure (uint32Members fields)

/-- The acknowledge message of `processHEL` (`ua_server_binary.c:241-267`). The status codes of the
encoder are ignored. -/
def sendACK (connection : ConnectionConfigs) : Except Fault (Option Transmission) :=
  match getSendBuffer connection connection.localConf.sendBufferSize with
  | none => .ok none
  | some buffer => do
    let ackMessage := uint32Structure
      [connection.localConf.protocolVersion, connection.localConf.recvBufferSize,
        connection.localConf.sendBufferSize, connection.localConf.maxMessageSize,
        connection.localConf.maxChunkCount]
    let ackHeader := uint32Structure [Transport.messageTypeAck + ChunkType.final.toUInt32, 8 + 20]
    let (_, header) ← encodeInto buffer ackHeader []
    let (_, message) ← encodeInto buffer ackMessage header
    return some ⟨buffer, [(0, message)], some (8 + 20)⟩

/-- What `processOPN` answers with: the asymmetric security header it mirrors, the sequence header
and the response of the service. -/
structure OpenReply where
  securityPolicyUri : UaString
  senderCertificate : UaString
  receiverCertificateThumbprint : UaString
  sequenceNumber : UInt32
  requestId : UInt32
  channelId : UInt32
  response : Value

def OpenReply.asymHeader (reply : OpenReply) : Value :=
  .structure (.scalar (.string reply.securityPolicyUri) (.scalar (.string reply.senderCertificate)
    (.scalar (.string reply.receiverCertificateThumbprint) .nil)))

/-- The header of a message on a channel: `UA_SecureConversationMessageHeader`. -/
def conversationHeader (messageTypeAndChunkType messageSize secureChannelId : UInt32) : Value :=
  .structure (.scalar (uint32Structure [messageTypeAndChunkType, messageSize])
    (.scalar (.uint32 secureChannelId) .nil))

/-- The end of `processOPN` (`ua_server_binary.c:323-367`). The bytes before the offset are at
first the 12 that are skipped for the header, whether the buffer has them or not: every encoding
starts with a primitive, which does not fit then. -/
def sendOPN (connection : ConnectionConfigs) (reply : OpenReply) :
    Except Fault (Option Transmission) :=
  match getSendBuffer connection connection.localConf.sendBufferSize with
  | none => .ok none
  | some buffer => do
    let skipped := List.replicate 12 0
    let (asymStatus, asym) ← encodeInto buffer reply.asymHeader skipped
    let (seqStatus, seq) ← encodeInto buffer
      (uint32Structure [reply.sequenceNumber, reply.requestId]) asym
    let (typeStatus, type) ← encodeInto buffer (.nodeId ⟨0, .numeric 449⟩) seq
    let (status, message) ← encodeInto buffer reply.response type
    let retval := asymStatus ||| seqStatus ||| typeStatus ||| status
    if retval ≠ StatusCode.good then return some ⟨buffer, [(12, message.drop 12)], none⟩
    else
      let messageSize := UInt32.ofNat message.length
      let (_, header) ← encodeInto buffer
        (conversationHeader (messageTypeOpn + ChunkType.final.toUInt32) messageSize
          reply.channelId) []
      return some ⟨buffer, [(12, message.drop 12), (0, header)], some messageSize.toNat⟩

/-- The function returns, and what it sends is in bounds. -/
def SendsInBounds (sent : Except Fault (Option Transmission)) : Prop :=
  ∃ t, sent = .ok t ∧ ∀ transmission ∈ t, transmission.InBounds

theorem run_none {H : Type} (fuel : Nat) (sc : Script) (s : EncodeState H) :
    ∃ r bytes, (sc.run (fuel + 1) none).run s = .ok (r, s.write bytes) ∧
      bytes.length ≤ s.room := by
  induction sc generalizing s with
  | done => exact ⟨_, [], by rw [EncodeState.write_nil]; rfl, Nat.zero_le _⟩
  | write bytes =>
    rw [Script.run, run_encodePrimitive]
    split
    · exact ⟨_, [], by rw [EncodeState.write_nil], Nat.zero_le _⟩
    · next h => exact ⟨_, bytes, rfl, Nat.not_lt.mp h⟩
  | copy unit mem =>
    by_cases hlt : s.room < mem.length
    · refine ⟨StatusCode.badEncodingError, mem.take (s.room / unit * unit), ?_, ?_⟩
      · apply run_arrayEncodeBinaryOverlayable_succ_ok.mpr
        rw [if_pos hlt]
        refine ⟨_, _, run_exchangeBuffer_none_ok.mpr ⟨rfl, rfl⟩, ?_⟩
        exact ⟨rfl, rfl⟩
      · rw [length_take_possible unit hlt]
        exact Nat.div_mul_le_self _ _
    · refine ⟨StatusCode.good, mem, ?_, Nat.not_lt.mp hlt⟩
      apply run_arrayEncodeBinaryOverlayable_succ_ok.mpr
      rw [if_neg hlt]
      exact ⟨rfl, rfl⟩
  | fail status bad => exact ⟨_, [], by rw [EncodeState.write_nil]; rfl, Nat.zero_le _⟩
  | failAfter sc status bad ih =>
    obtain ⟨r, bytes, hrun, hle⟩ := ih s
    exact ⟨status, bytes, run_bind_ok.mpr ⟨r, _, hrun, rfl⟩, hle⟩
  | both a b iha ihb =>
    obtain ⟨r, bytes, ha, hle⟩ := iha s
    obtain ⟨r', bytes', hb, hle'⟩ := ihb (s.write bytes)
    rw [EncodeState.write_write] at hb
    rw [EncodeState.room_write] at hle'
    refine ⟨_, bytes ++ bytes', run_orStatus_ok.mpr ⟨r, _, ha, r', hb, rfl⟩, ?_⟩
    rw [List.length_append]
    omega
  | andThen a b iha ihb =>
    obtain ⟨r, bytes, ha, hle⟩ := iha s
    by_cases hr : r = StatusCode.good
    · obtain ⟨r', bytes', hb, hle'⟩ := ihb (s.write bytes)
      rw [EncodeState.write_write] at hb
      rw [EncodeState.room_write] at hle'
      refine ⟨r', bytes ++ bytes', run_bind_ok.mpr ⟨r, _, ha, by rw [if_pos hr]; exact hb⟩, ?_⟩
      rw [List.length_append]
      omega
    · exact ⟨r, bytes, run_bind_ok.mpr ⟨r, _, ha, by rw [if_neg hr]; rfl⟩, hle⟩
  | retry sc ih =>
    obtain ⟨r, bytes, hrun, hle⟩ := ih s
    by_cases hlimits : r = StatusCode.badEncodingLimitsExceeded
    · refine ⟨StatusCode.badEncodingError, [], ?_, Nat.zero_le _⟩
      apply run_encodeWithExchange_succ_ok.mpr
      refine ⟨r, _, hrun, ?_⟩
      rw [if_pos hlimits, EncodeState.write_nil]
      refine ⟨_, _, run_exchangeBuffer_none_ok.mpr ⟨rfl, rfl⟩, ?_⟩
      exact ⟨rfl, rfl⟩
    · refine ⟨r, bytes, ?_, hle⟩
      apply run_encodeWithExchange_succ_ok.mpr
      refine ⟨r, _, hrun, ?_⟩
      rw [if_neg hlimits]
      exact ⟨rfl, rfl⟩

theorem encodeInto_ok (buffer : Nat) (src : Value) (before : List UInt8) :
    ∃ r bytes, encodeInto buffer src before = .ok (r, before ++ bytes) ∧
      bytes.length ≤ buffer - before.length ∧
      (r = StatusCode.good → (membersScript src.members).FailFree ∧
        bytes = (membersScript src.members).bytes) := by
  obtain ⟨r, bytes, hrun, hle⟩ := run_none 0 (membersScript src.members)
    (⟨0, some buffer, ⟨0, before⟩, ()⟩ : EncodeState Unit)
  rw [run_membersScript] at hrun
  have hencode : encodeBinary 1 none src () buffer before =
      .ok (r, EncodeState.write ⟨0, some buffer, ⟨0, before⟩, ()⟩ bytes) := hrun
  refine ⟨r, bytes, by rw [encodeInto, hencode]; rfl, hle, ?_⟩
  rintro rfl
  obtain ⟨hfree, hbytes⟩ := encodeBinary_none_good hencode
  exact ⟨hfree, List.append_cancel_left hbytes⟩

theorem sendACK_inBounds_iff {connection : ConnectionConfigs} {buffer : Nat}
    (hbuffer : getSendBuffer connection connection.localConf.sendBufferSize = some buffer) :
    SendsInBounds (sendACK connection) ↔ 28 ≤ buffer := by
  let ackMessage := uint32Structure
    [connection.localConf.protocolVersion, connection.localConf.recvBufferSize,
      connection.localConf.sendBufferSize, connection.localConf.maxMessageSize,
      connection.localConf.maxChunkCount]
  let ackHeader := uint32Structure [Transport.messageTypeAck + ChunkType.final.toUInt32, 8 + 20]
  obtain ⟨r, header, hheader, hle, -⟩ := encodeInto_ok buffer ackHeader []
  obtain ⟨r', message, hmessage, hle', -⟩ := encodeInto_ok buffer ackMessage ([] ++ header)
  have hsent : sendACK connection =
      .ok (some ⟨buffer, [(0, [] ++ header ++ message)], some 28⟩) := by
    rw [sendACK, hbuffer]
    show (encodeInto buffer ackHeader [] >>= _) = _
    rw [hheader]
    show (encodeInto buffer ackMessage ([] ++ header) >>= _) = _
    rw [hmessage]
    rfl
  rw [hsent]
  constructor
  · rintro ⟨t, ht, hbounds⟩
    obtain rfl := Except.ok.inj ht
    exact (hbounds _ rfl).2 28 rfl
  · intro h
    refine ⟨_, rfl, ?_⟩
    rintro _ ⟨⟩
    refine ⟨?_, ?_⟩
    · intro w hw _
      rcases List.mem_singleton.mp hw with rfl
      simp only [List.nil_append, List.length_nil, List.length_append] at hle hle' ⊢
      omega
    · rintro _ ⟨⟩
      exact h

theorem length_asymHeader (reply : OpenReply)
    (h : (membersScript reply.asymHeader.members).FailFree) :
    0 < (membersScript reply.asymHeader.members).bytes.length := by
  have hfree : (stringScript reply.securityPolicyUri).FailFree := h.1
  have hlength := length_stringScript hfree
  show 0 < ((stringScript reply.securityPolicyUri).bytes ++ _).length
  rw [List.length_append, hlength]
  unfold stringCalcSizeBinary
  omega

theorem sendOPN_inBounds (connection : ConnectionConfigs) (reply : OpenReply) :
    SendsInBounds (sendOPN connection reply) := by
  cases hbuffer : getSendBuffer connection connection.localConf.sendBufferSize with
  | none => exact ⟨none, by rw [sendOPN, hbuffer], fun _ h => nomatch h⟩
  | some buffer =>
    let skipped : List UInt8 := List.replicate 12 0
    obtain ⟨r1, asym, hasym, hle1, hgood1⟩ := encodeInto_ok buffer reply.asymHeader skipped
    obtain ⟨r2, seq, hseq, hle2, -⟩ := encodeInto_ok buffer
      (uint32Structure [reply.sequenceNumber, reply.requestId]) (skipped ++ asym)
    obtain ⟨r3, type, htype, hle3, -⟩ := encodeInto_ok buffer (.nodeId ⟨0, .numeric 449⟩)
      (skipped ++ asym ++ seq)
    obtain ⟨r4, response, hresponse, hle4, -⟩ := encodeInto_ok buffer reply.response
      (skipped ++ asym ++ seq ++ type)
    let message := skipped ++ asym ++ seq ++ type ++ response
    obtain ⟨r5, header, hheader, hle5, -⟩ := encodeInto_ok buffer
      (conversationHeader (messageTypeOpn + ChunkType.final.toUInt32) (UInt32.ofNat message.length)
        reply.channelId) []
    have hskipped : skipped.length = 12 := rfl
    have hlength : message.length =
        12 + (asym.length + seq.length + type.length + response.length) := by
      simp only [message, List.length_append, hskipped]
      omega
    simp only [List.length_append, hskipped] at hle1 hle2 hle3 hle4
    have hrest : ∀ w ∈ [(12, message.drop 12)], w.2 ≠ [] → w.1 + w.2.length ≤ buffer := by
      intro w hw hne
      rcases List.mem_singleton.mp hw with rfl
      have hpos := List.length_pos_of_ne_nil hne
      simp only [List.length_drop] at hpos ⊢
      omega
    have hsent : sendOPN connection reply = .ok (some (
        if r1 ||| r2 ||| r3 ||| r4 ≠ StatusCode.good then ⟨buffer, [(12, message.drop 12)], none⟩
        else ⟨buffer, [(12, message.drop 12), (0, [] ++ header)],
          some (UInt32.ofNat message.length).toNat⟩)) := by
      rw [sendOPN, hbuffer]
      show (encodeInto buffer reply.asymHeader skipped >>= _) = _
      rw [hasym]
      show (encodeInto buffer _ (skipped ++ asym) >>= _) = _
      rw [hseq]
      show (encodeInto buffer _ (skipped ++ asym ++ seq) >>= _) = _
      rw [htype]
      show (encodeInto buffer _ (skipped ++ asym ++ seq ++ type) >>= _) = _
      rw [hresponse]
      show (if _ then _ else encodeInto buffer _ [] >>= _) = _
      split
      · rfl
      · rw [hheader]
        rfl
    rw [hsent]
    refine ⟨_, rfl, ?_⟩
    rintro _ ⟨⟩
    split
    · exact ⟨hrest, fun _ h => nomatch h⟩
    · next hgood =>
      -- the security header was encoded, so the buffer has room behind the 12 bytes
      have hr1 : r1 = StatusCode.good := by
        have hall := Classical.not_not.mp hgood
        exact (or_eq_good.mp (or_eq_good.mp (or_eq_good.mp hall).1).1).1
      obtain ⟨hfree, rfl⟩ := hgood1 hr1
      have hpos := length_asymHeader reply hfree
      refine ⟨?_, ?_⟩
      · intro w hw hne
        rcases List.mem_cons.mp hw with rfl | hw
        · exact hrest _ (List.mem_singleton.mpr rfl) hne
        · rcases List.mem_singleton.mp hw with rfl
          simp only [List.nil_append, List.length_nil] at hle5 ⊢
          omega
      · rintro _ ⟨⟩
        have hmod : (UInt32.ofNat message.length).toNat ≤ message.length := by
          exact Nat.mod_le _ _
        show (UInt32.ofNat message.length).toNat ≤ buffer
        omega

/-- A callback that is watched: the run it gets lies in the buffer, and so does the chunk that is
sent, with the headers in front of the buffer. -/
def watch (send : ExchangeEncodeBuffer SendState) : ExchangeEncodeBuffer SendState :=
  fun st run dst =>
    match dst with
    | none => .error Fault.nullDeref
    | some length =>
      if length < run.length then .error Fault.outOfBounds
      else
        match send st run dst with
        | .error e => .error e
        | .ok (retval, st', dst') =>
          if length + secureMessageHeaderLength < (st'.sent.getLastD []).length then
            .error Fault.outOfBounds
          else .ok (retval, st', dst')

/-- `finishMessage` with any callback. -/
def finishWith (send : ExchangeEncodeBuffer SendState) (retval : StatusCode)
    (s : EncodeState SendState) : Except Fault (StatusCode × SendState) :=
  if retval ≠ StatusCode.good then
    if s.handle.ci.final then .ok (retval, s.handle)
    else
      match send { s.handle with ci.errorCode := retval } s.pos.before s.encodeBuf with
      | .ok (_, st, _) => .ok (retval, st)
      | .error e => .error e
  else
    match send { s.handle with ci.final := true } s.pos.before s.encodeBuf with
    | .ok (status, st, _) => .ok (status, st)
    | .error e => .error e

/-- `sendBinaryMessage` with any callback. -/
def sendMessageWith (send : ExchangeEncodeBuffer SendState) (fuel : Nat) (conf : SendConfig)
    (sendSequenceNumber requestId : UInt32) (content : Value) (contentType : TypeInfo) :
    Except Fault (StatusCode × SendState) :=
  match encodeBinary fuel (some send) content
      { ci := initialChunkInfo requestId contentType, sendSequenceNumber, sent := [] }
      (payloadSize conf) (encodeTypeId contentType (payloadSize conf)) with
  | .ok (retval, s) => finishWith send retval s
  | .error e => .error e

/-- The length of the headers does not wrap, and no chunk leaves its buffer, however long the
encoder runs. -/
def ServiceInBounds (conf : SendConfig) (token : SecurityToken)
    (sendSequenceNumber requestId : UInt32) (content : Value) (contentType : TypeInfo) : Prop :=
  secureMessageHeaderLength ≤ conf.sendBufferSize.toNat ∧
    ∀ fuel e, sendMessageWith (watch (sendChunk conf token)) fuel conf sendSequenceNumber requestId
      content contentType = .error e → e = Fault.diverges

/-- The payload at the start of a message, with the type id as far as it fits. -/
def startUsage (conf : SendConfig) (contentType : TypeInfo) : Usage where
  serial := 0
  fill := (encodeTypeId contentType (payloadSize conf)).length
  messageSizeSoFar := 0
  chunksSoFar := 0

/-- The end of a payload cuts off an element after a part of it went into an earlier payload. -/
def Torn (conf : SendConfig) (content : Value) (contentType : TypeInfo) : Prop :=
  ∃ fuel, (membersScript content.members).place (payloadSupply conf) fuel
    (startUsage conf contentType) = .torn

/-- The state of the encoder while a message goes on. -/
structure Underway (conf : SendConfig) (s : EncodeState SendState) : Prop where
  fresh : s.pos.buffer = s.buffer
  encodeBuf_eq : s.encodeBuf = some (payloadSize conf)
  fill_le : s.pos.before.length ≤ payloadSize conf
  not_final : s.handle.ci.final = false
  good : s.handle.ci.errorCode = StatusCode.good

section Service

variable {conf : SendConfig} (token : SecurityToken)

theorem length_abortPayload_le (length : Nat) (errorCode : StatusCode) :
    (abortPayload length errorCode).length ≤ length := by
  unfold abortPayload
  split
  · split
    · assumption
    · assumption
  · next h4 =>
    rw [if_neg (by omega)]
    exact Nat.zero_le _

theorem sendChunk_some (conf : SendConfig) (token : SecurityToken) (st : SendState)
    (run : List UInt8) (length : Nat) :
    ∃ status handle dst, sendChunk conf token st run (some length) = .ok (status, handle, dst) ∧
      status = (if exceedsLimits conf st.ci.messageSizeSoFar st.ci.chunksSoFar
        (run.length + secureMessageHeaderLength) then StatusCode.badResponseTooLarge
        else st.ci.errorCode) ∧
      handle.ci.final = (st.ci.final || decide (status ≠ StatusCode.good)) ∧
      handle.ci.errorCode = status ∧
      dst = (if handle.ci.final then none else some (payloadSize conf)) ∧
      (handle.sent.getLastD []).length =
        (if status ≠ StatusCode.good then abortPayload length status else run).length +
          secureMessageHeaderLength ∧
      (status = StatusCode.good → handle.ci.messageSizeSoFar =
        st.ci.messageSizeSoFar + (run.length + secureMessageHeaderLength)) ∧
      handle.ci.chunksSoFar = st.ci.chunksSoFar + 1 := by
  refine ⟨_, _, _, rfl, rfl, rfl, rfl, rfl, ?_, ?_, rfl⟩
  · simp [length_chunkBytes]
  · intro hgood
    rw [hgood]
    rfl

theorem watch_sendChunk (st : SendState) {run : List UInt8} {length : Nat}
    (h : run.length ≤ length) :
    watch (sendChunk conf token) st run (some length) =
      sendChunk conf token st run (some length) := by
  obtain ⟨status, handle, dst, hcall, -, -, -, -, hlength, -, -⟩ :=
    sendChunk_some conf token st run length
  have hpayload : (if status ≠ StatusCode.good then abortPayload length status
      else run).length ≤ length := by
    split
    · exact length_abortPayload_le length status
    · exact h
  simp only [watch, hcall]
  rw [if_neg (Nat.not_lt.mpr h), if_neg]
  omega

theorem usage_exchanged {s : EncodeState SendState} {handle : SendState} {dst : Option Nat} :
    usage (exchanged s handle dst) =
      ⟨s.buffer + 1, 0, handle.ci.messageSizeSoFar, handle.ci.chunksSoFar⟩ := rfl

theorem watched_follows : Follows (watch (sendChunk conf token)) (payloadSupply conf) usage
    (Underway conf) (fun s => s.handle.ci.final = true) where
  fresh := fun s hs => hs.fresh
  serial := fun s _ => rfl
  room := by
    intro s hs
    simp [EncodeState.room, hs.encodeBuf_eq, payloadSupply, usage]
  write := by
    intro s bytes hs hle
    have hfill := hs.fill_le
    simp only [EncodeState.room, hs.encodeBuf_eq, Option.getD_some] at hle
    refine ⟨⟨hs.fresh, hs.encodeBuf_eq, ?_, hs.not_final, hs.good⟩, ?_⟩
    · rw [EncodeState.write_before, List.length_append]
      omega
    · simp [usage, payloadSupply]
  next := by
    intro s t hs hnext
    have hlimits : exceedsLimits conf s.handle.ci.messageSizeSoFar s.handle.ci.chunksSoFar
        (s.pos.before.length + secureMessageHeaderLength) = false := by
      by_contra h
      simp [payloadSupply, usage, h] at hnext
    obtain ⟨status, handle, dst, hcall, hstatus, hfinal, hcode, hdst, -, hsize, hchunks⟩ :=
      sendChunk_some conf token s.handle s.pos.before (payloadSize conf)
    rw [hlimits, if_neg (by decide), hs.good] at hstatus
    subst hstatus
    have hopen : handle.ci.final = false := by
      rw [hfinal, hs.not_final]
      rfl
    rw [hopen, if_neg (by decide)] at hdst
    subst hdst
    refine ⟨handle, some (payloadSize conf), ?_, ⟨rfl, rfl, Nat.zero_le _, hopen, hcode⟩, ?_⟩
    · rw [hs.encodeBuf_eq, watch_sendChunk token s.handle hs.fill_le]
      exact hcall
    · simp only [payloadSupply, usage, hlimits] at hnext
      rw [← Option.some.inj hnext, usage_exchanged, hsize rfl, hchunks]
  refuse := by
    intro s hs hnext
    have hlimits : exceedsLimits conf s.handle.ci.messageSizeSoFar s.handle.ci.chunksSoFar
        (s.pos.before.length + secureMessageHeaderLength) = true := by
      by_contra h
      simp [payloadSupply, usage, h] at hnext
    obtain ⟨status, handle, dst, hcall, hstatus, hfinal, -, hdst, -, -, -⟩ :=
      sendChunk_some conf token s.handle s.pos.before (payloadSize conf)
    rw [hlimits, if_pos rfl] at hstatus
    subst hstatus
    have hclosed : handle.ci.final = true := by
      rw [hfinal, Bool.or_eq_true]
      exact Or.inr (decide_eq_true refusal_badResponseTooLarge.1)
    rw [hclosed, if_pos rfl] at hdst
    subst hdst
    refine ⟨StatusCode.badResponseTooLarge, handle, ?_, refusal_badResponseTooLarge, hclosed⟩
    rw [hs.encodeBuf_eq, watch_sendChunk token s.handle hs.fill_le]
    exact hcall

theorem length_encodeTypeId_le (contentType : TypeInfo) (length : Nat) :
    (encodeTypeId contentType length).length ≤ length := by
  obtain ⟨r, bytes, hencode, hle, -⟩ :=
    encodeInto_ok length (.nodeId (encodingTypeId contentType)) []
  rw [encodeInto] at hencode
  rw [encodeTypeId]
  split
  · next s hrun =>
    rw [hrun] at hencode
    obtain ⟨-, hbytes⟩ := Prod.mk.inj (Except.ok.inj hencode)
    rw [hbytes]
    exact hle
  · exact Nat.zero_le _

theorem underway_messageStart (conf : SendConfig) (start requestId : UInt32)
    (contentType : TypeInfo) :
    Underway conf (messageStart conf start requestId contentType) ∧
      usage (messageStart conf start requestId contentType) = startUsage conf contentType :=
  ⟨⟨rfl, rfl, length_encodeTypeId_le contentType _, rfl, rfl⟩, rfl⟩

theorem finishWith_ok {r : StatusCode} {s : EncodeState SendState}
    (h : Underway conf s ∨ s.handle.ci.final = true ∧ r ≠ StatusCode.good) :
    ∃ x, finishWith (watch (sendChunk conf token)) r s = .ok x := by
  unfold finishWith
  rcases h with hs | ⟨hfinal, hbad⟩
  · have hcall : ∀ st, ∃ x,
        watch (sendChunk conf token) st s.pos.before s.encodeBuf = .ok x := by
      intro st
      obtain ⟨status, handle, dst, hsend, -⟩ :=
        sendChunk_some conf token st s.pos.before (payloadSize conf)
      refine ⟨(status, handle, dst), ?_⟩
      rw [hs.encodeBuf_eq, watch_sendChunk token st hs.fill_le]
      exact hsend
    by_cases hbad : r ≠ StatusCode.good
    · obtain ⟨x, hx⟩ := hcall { s.handle with ci.errorCode := r }
      rw [if_pos hbad, if_neg (by rw [hs.not_final]; decide), hx]
      exact ⟨_, rfl⟩
    · obtain ⟨x, hx⟩ := hcall { s.handle with ci.final := true }
      rw [if_neg hbad, hx]
      exact ⟨_, rfl⟩
  · rw [if_pos hbad, if_pos hfinal]
    exact ⟨_, rfl⟩

theorem sendMessageWith_eq (send : ExchangeEncodeBuffer SendState) (fuel : Nat)
    (start requestId : UInt32) (content : Value) (contentType : TypeInfo) :
    sendMessageWith send fuel conf start requestId content contentType =
      match (encodeBinaryInternal fuel (some send) content.members).run
        (messageStart conf start requestId contentType) with
      | .ok (retval, s) => finishWith send retval s
      | .error e => .error e := rfl

theorem serviceInBounds_iff (start requestId : UInt32) (content : Value) (contentType : TypeInfo) :
    ServiceInBounds conf token start requestId content contentType ↔
      secureMessageHeaderLength ≤ conf.sendBufferSize.toNat ∧ ¬ Torn conf content contentType := by
  obtain ⟨hlive, husage⟩ := underway_messageStart conf start requestId contentType
  have hends : ∀ fuel, ((membersScript content.members).place (payloadSupply conf) fuel
      (startUsage conf contentType)).Describes (Underway conf)
        (fun s => s.handle.ci.final = true) usage (messageStart conf start requestId contentType)
        ((encodeBinaryInternal fuel (some (watch (sendChunk conf token))) content.members).run
          (messageStart conf start requestId contentType)) := by
    intro fuel
    rw [← husage]
    exact run_placeMembers (watched_follows token) fuel content.members hlive
  apply and_congr_right
  intro _
  constructor
  · rintro hbounds ⟨fuel, htorn⟩
    have hrun := hends fuel
    rw [htorn] at hrun
    have hfault : (encodeBinaryInternal fuel (some (watch (sendChunk conf token)))
        content.members).run (messageStart conf start requestId contentType) =
          .error Fault.outOfBounds := hrun
    have hmessage := hbounds fuel Fault.outOfBounds
    rw [sendMessageWith_eq, hfault] at hmessage
    exact nomatch hmessage rfl
  · intro hwhole fuel e herror
    have hrun := hends fuel
    rw [sendMessageWith_eq] at herror
    cases hplace : (membersScript content.members).place (payloadSupply conf) fuel
        (startUsage conf contentType) with
    | ended r t =>
      rw [hplace] at hrun
      obtain ⟨s', hrun, hs, -, -⟩ := hrun
      obtain ⟨x, hx⟩ := finishWith_ok token (r := r) (Or.inl hs)
      rw [hrun] at herror
      exact nomatch hx.symm.trans herror
    | stopped =>
      rw [hplace] at hrun
      obtain ⟨r, s', hrun, hrefusal, hfinal, -, -⟩ := hrun
      obtain ⟨x, hx⟩ := finishWith_ok token (r := r) (Or.inr ⟨hfinal, hrefusal.1⟩)
      rw [hrun] at herror
      exact nomatch hx.symm.trans herror
    | torn => exact absurd ⟨fuel, hplace⟩ hwhole
    | unfinished =>
      rw [hplace] at hrun
      have hfault : (encodeBinaryInternal fuel (some (watch (sendChunk conf token)))
          content.members).run (messageStart conf start requestId contentType) =
            .error Fault.diverges := hrun
      rw [hfault] at herror
      exact (Except.error.inj herror).symm

end Service

/-- What is sent after the HEL. -/
inductive LaterSend where
  | opn (reply : OpenReply)
  | service (token : SecurityToken) (sendSequenceNumber requestId : UInt32) (content : Value)
      (contentType : TypeInfo)

def LaterSend.InBounds (connection : ConnectionConfigs) : LaterSend → Prop
  | opn reply => SendsInBounds (sendOPN connection reply)
  | service token sendSequenceNumber requestId content contentType =>
    ServiceInBounds (sendConfig connection) token sendSequenceNumber requestId content contentType

/-- Only a service response is sent in more than one buffer. -/
def LaterSend.Torn (connection : ConnectionConfigs) : LaterSend → Prop
  | opn _ => False
  | service _ _ _ content contentType =>
      SecureChannel.Torn (sendConfig connection) content contentType

/-- After the negotiation every send stays in bounds exactly if the negotiated buffers hold the
acknowledge message and no element of a response is torn. -/
theorem negotiated_inBounds (connection : ConnectionConfigs) (helloMessage : HelloMessage)
    (later : List LaterSend) :
    (SendsInBounds (sendACK (negotiate connection helloMessage)) ∧
        ∀ m ∈ later, m.InBounds (negotiate connection helloMessage)) ↔
      28 ≤ min connection.localConf.sendBufferSize.toNat helloMessage.receiveBufferSize.toNat ∧
        ∀ m ∈ later, ¬ m.Torn (negotiate connection helloMessage) := by
  rw [sendACK_inBounds_iff (getSendBuffer_negotiate connection helloMessage),
    negotiate_sendBufferSize]
  apply and_congr_right
  intro hsize
  apply forall₂_congr
  intro m _
  cases m with
  | opn reply => exact iff_of_true (sendOPN_inBounds _ reply) id
  | service token sendSequenceNumber requestId content contentType =>
    have hheader : secureMessageHeaderLength ≤
        (sendConfig (negotiate connection helloMessage)).sendBufferSize.toNat := by
      show 24 ≤ (negotiate connection helloMessage).localConf.sendBufferSize.toNat
      rw [negotiate_sendBufferSize]
      omega
    exact (serviceInBounds_iff token sendSequenceNumber requestId content contentType).trans
      (and_iff_right hheader)

def standardConnection : ConnectionConfigs where
  localConf := ⟨0, 65535, 65535, 0, 0⟩
  remoteConf := ⟨0, 65535, 65535, 0, 0⟩

/-- A peer that announces 16 bytes: the acknowledge message is sent with 28 bytes from a buffer of
16, and the length that is left for a payload wraps. -/
theorem smallBuffer_overruns :
    ¬ SendsInBounds (sendACK (negotiate standardConnection ⟨0, 16, 65535, 0, 0⟩)) ∧
      ¬ (LaterSend.service ⟨1, 1⟩ 50 7 (.structure (.scalar (.uint32 5) .nil)) sampleType).InBounds
        (negotiate standardConnection ⟨0, 16, 65535, 0, 0⟩) := by
  refine ⟨?_, fun h => absurd h.1 (by decide)⟩
  rw [sendACK_inBounds_iff (getSendBuffer_negotiate _ _)]
  decide

end FactoryThing.SecureChannel
