import FactoryThing.Types.NodeId
import FactoryThing.Lib.Keyed

/-!
# Received chunks

`UA_SecureChannel_processChunks` (`src/ua_securechannel.c:256-457`) takes what a connection received
apart into chunks and puts the chunks of each request together. The part that reads a chunk off the
bytes (`readChunk`) works on the security tokens and the sequence number of the channel, the part
that puts messages together (`processChunk`) on its list of partial messages. Bytes are read in
little-endian order, allocations succeed. `realloc` to zero bytes frees the buffer and returns
`NULL`, and `appendChunk` takes that for a failure and frees it once more.
-/

namespace FactoryThing.SecureChannel

/-- `UA_MessageType` (`tools/schema/Custom.Opc.Ua.Transport.bsd`). -/
abbrev MessageType := UInt32

def messageTypeMsg : MessageType := 0x47534D
def messageTypeOpn : MessageType := 0x4E504F
def messageTypeClo : MessageType := 0x4F4C43
def messageTypeErr : MessageType := 0x525245

/-- `UA_ChunkType` (`tools/schema/Custom.Opc.Ua.Transport.bsd`). -/
inductive ChunkType where
  | final
  | intermediate
  | abort
  deriving DecidableEq

/-- The bits of a chunk type in `messageTypeAndChunkType`. -/
def ChunkType.toUInt32 : ChunkType → UInt32
  | .final => 0x46000000
  | .intermediate => 0x43000000
  | .abort => 0x41000000

/-- The cases of the switch over `messageTypeAndChunkType & 0xff000000`. -/
def chunkTypeOf (messageTypeAndChunkType : UInt32) : Option ChunkType :=
  [ChunkType.intermediate, .final, .abort].find? fun t =>
    messageTypeAndChunkType &&& 0xff000000 == t.toUInt32

/-- The fields of `UA_ChannelSecurityToken` that are compared with a chunk. -/
structure SecurityToken where
  channelId : UInt32
  tokenId : UInt32
  deriving DecidableEq

/-- The part of `UA_SecureChannel` that decides which chunks are accepted. -/
structure Link where
  securityToken : SecurityToken
  nextSecurityToken : SecurityToken
  receiveSequenceNumber : UInt32
  deriving DecidableEq

/-- `struct ChunkEntry` (`ua_securechannel.h:26-30`). -/
structure ChunkEntry where
  requestId : UInt32
  bytes : List UInt8
  deriving DecidableEq

/-- `UA_SecureChannel`, as far as it receives chunks. -/
structure Channel where
  link : Link
  chunks : List ChunkEntry
  deriving DecidableEq

/-- A chunk as read off the bytes: `payload` is what its size field leaves after the headers,
`none` if the chunk would not end inside the received bytes. -/
structure Chunk where
  messageType : MessageType
  chunkType : ChunkType
  requestId : UInt32
  payload : Option (List UInt8)
  deriving DecidableEq

inductive Callback where
  | error (code : UInt32) (reason : UaString)
  | message (messageType : MessageType) (requestId : UInt32) (bytes : List UInt8)
  deriving DecidableEq

/-- `UA_UInt32_decodeBinary` at an offset. -/
def readUInt32 (src : List UInt8) (offset : Nat) : Option (UInt32 × Nat) :=
  match src.drop offset with
  | b0 :: b1 :: b2 :: b3 :: _ =>
      some (b0.toUInt32 ||| b1.toUInt32 <<< 8 ||| b2.toUInt32 <<< 16 ||| b3.toUInt32 <<< 24,
        offset + 4)
  | _ => none

/-- `UA_String_decodeBinary` at an offset (`ua_types_encoding_binary.c:527-583`): a length of -1 (or
any negative one) is a null string, a length beyond the bytes is refused. -/
def readString (src : List UInt8) (offset : Nat) : Option (UaString × Nat) := do
  let (length, offset) ← readUInt32 src offset
  if length.toNat ≥ 2147483648 then some (.null, offset)
  else if length = 0 then some (.sentinel, offset)
  else if offset + length.toNat ≤ src.length then
    some (.mem ((src.drop offset).take length.toNat), offset + length.toNat)
  else none

/-- `UA_SecureChannel_revolveTokens` (`ua_securechannel.c:111-119`). -/
def revolveTokens (link : Link) : Link :=
  if link.nextSecurityToken.tokenId = 0 then link
  else { link with securityToken := link.nextSecurityToken, nextSecurityToken := ⟨0, 0⟩ }

/-- `UA_SecureChannel_processSequenceNumber` (`ua_securechannel.c:345-356`); `none` if the number is
refused. -/
def processSequenceNumber (link : Link) (sequenceNumber : UInt32) : Option Link :=
  if sequenceNumber ≠ link.receiveSequenceNumber + 1 then
    if link.receiveSequenceNumber + 1 > 4294966271 ∧ sequenceNumber < 1024 then
      some { link with receiveSequenceNumber := sequenceNumber - 1 + 1 }
    else none
  else some { link with receiveSequenceNumber := link.receiveSequenceNumber + 1 }

/-- What one iteration of the loop finds at its offset: a reason to stop, an ERR message, or a
chunk; then the offset the next iteration starts at. -/
inductive Item where
  | stop (status : StatusCode)
  | error (code : UInt32) (reason : UaString) (next : Nat)
  | chunk (chunk : Chunk) (next : Nat)
  deriving DecidableEq

/-- The token and sequence number of a chunk other than OPN, checked against the channel: the
channel after it, the request id and the offset behind the headers. -/
def readSequenceHeader (link : Link) (chunks : List UInt8) (offset : Nat) :
    Link × Except StatusCode (UInt32 × Nat) :=
  match (do
    let (tokenId, offset) ← readUInt32 chunks offset
    let (sequenceNumber, offset) ← readUInt32 chunks offset
    let (requestId, offset) ← readUInt32 chunks offset
    some (tokenId, sequenceNumber, requestId, offset)) with
  | none => (link, .error StatusCode.badCommunicationError)
  | some (tokenId, sequenceNumber, requestId, offset) =>
      if tokenId ≠ link.securityToken.tokenId ∧ tokenId ≠ link.nextSecurityToken.tokenId then
        (link, .error StatusCode.badCommunicationError)
      else
        let link := if tokenId ≠ link.securityToken.tokenId then revolveTokens link else link
        match processSequenceNumber link sequenceNumber with
        | none => (link, .error StatusCode.badCommunicationError)
        | some link => (link, .ok (requestId, offset))

/-- The part of an iteration in front of the switch, with the test of the switch. The subtraction
`messageSize - processed_header` is done in `size_t`: a size field below the header length gives a
chunk that does not fit, and the next offset is counted from the beginning of the chunk either
way. The test for `ERR` reads up to two bytes behind the end, after which decoding fails whatever
they are. -/
def readChunk (link : Link) (chunks : List UInt8) (initialOffset : Nat) : Link × Item :=
  if chunks.length > 3 ∧ (chunks.drop initialOffset).take 3 = [0x45, 0x52, 0x52] then
    -- a `UA_TcpMessageHeader` and a `UA_TcpErrorMessage`
    match (do
      let (_, offset) ← readUInt32 chunks initialOffset
      let (_, offset) ← readUInt32 chunks offset
      let (code, offset) ← readUInt32 chunks offset
      let (reason, offset) ← readString chunks offset
      some (code, reason, offset)) with
    | none => (link, .stop StatusCode.badDecodingError)
    | some (code, reason, offset) => (link, .error code reason offset)
  else
    match (do
      let (messageTypeAndChunkType, offset) ← readUInt32 chunks initialOffset
      let (messageSize, offset) ← readUInt32 chunks offset
      let (secureChannelId, offset) ← readUInt32 chunks offset
      some (messageTypeAndChunkType, messageSize, secureChannelId, offset)) with
    | none => (link, .stop StatusCode.badDecodingError)
    | some (messageTypeAndChunkType, messageSize, secureChannelId, offset) =>
        if secureChannelId ≠ link.securityToken.channelId then
          (link, .stop StatusCode.badCommunicationError)
        else
          let messageType := messageTypeAndChunkType &&& 0x00ffffff
          -- OPN chunks have no sequence header; request id 0 stands for them
          match (if messageType = messageTypeOpn then (link, .ok (0, offset))
              else readSequenceHeader link chunks offset :
                Link × Except StatusCode (UInt32 × Nat)) with
          | (link, .error status) => (link, .stop status)
          | (link, .ok (requestId, offset)) =>
              match chunkTypeOf messageTypeAndChunkType with
              | none => (link, .stop StatusCode.badDecodingError)
              | some chunkType =>
                  let finish := initialOffset + messageSize.toNat
                  let payload :=
                    if offset ≤ finish ∧ finish ≤ chunks.length then
                      some ((chunks.drop offset).take (finish - offset))
                    else none
                  (link, .chunk ⟨messageType, chunkType, requestId, payload⟩ finish)

/-- The search for the `ChunkEntry` of a request. -/
def findEntry (entries : List ChunkEntry) (requestId : UInt32) : Option ChunkEntry :=
  Keyed.find ChunkEntry.requestId entries requestId

/-- `UA_SecureChannel_removeChunk` (`ua_securechannel.c:256-267`). -/
def removeChunk (entries : List ChunkEntry) (requestId : UInt32) : List ChunkEntry :=
  Keyed.remove ChunkEntry.requestId entries requestId

/-- `appendChunk` (`ua_securechannel.c:269-281`) for an entry with a buffer: `none` when `realloc`
is asked for zero bytes, since the branch `!new_bytes` then frees the buffer a second time. -/
def ChunkEntry.append (payload : List UInt8) (ch : ChunkEntry) : Option ChunkEntry :=
  if ch.bytes.length + payload.length = 0 then none
  else some { ch with bytes := ch.bytes ++ payload }

/-- `UA_SecureChannel_appendChunk` (`ua_securechannel.c:283-311`). The buffer of a new entry is
allocated by `realloc` of `NULL`, which is a `malloc`. -/
def appendChunk (entries : List ChunkEntry) (requestId : UInt32) (payload : Option (List UInt8)) :
    Option (List ChunkEntry) :=
  match payload with
  | none => some (removeChunk entries requestId)
  | some payload =>
      match findEntry entries requestId with
      | none => some (⟨requestId, payload⟩ :: entries)
      | some ch => (ch.append payload).map fun ch =>
          Keyed.modify ChunkEntry.requestId (fun _ => ch) requestId entries

/-- `UA_SecureChannel_finalizeChunk` (`ua_securechannel.c:313-343`): the entries left, and the
message. -/
def finalizeChunk (entries : List ChunkEntry) (requestId : UInt32)
    (payload : Option (List UInt8)) : Option (List ChunkEntry × List UInt8) :=
  match payload with
  | none => some (removeChunk entries requestId, [])
  | some payload =>
      match findEntry entries requestId with
      | none => some (entries, payload)
      | some ch => (ch.append payload).map fun ch => (removeChunk entries requestId, ch.bytes)

/-- The switch over the chunk type: the entries after it and the callback made; `none` when a buffer
is freed twice. -/
def processChunk (entries : List ChunkEntry) (chunk : Chunk) :
    Option (List ChunkEntry × Option Callback) :=
  match chunk.chunkType with
  | .intermediate =>
      (appendChunk entries chunk.requestId chunk.payload).map fun entries => (entries, none)
  | .final =>
      (finalizeChunk entries chunk.requestId chunk.payload).map fun (entries, message) =>
        (entries,
          if message.length > 0 then some (.message chunk.messageType chunk.requestId message)
          else none)
  | .abort => some (removeChunk entries chunk.requestId, none)

/-- What an entry list keeps of a request. -/
def entryBytes (entries : List ChunkEntry) (r : UInt32) : Option (List UInt8) :=
  (findEntry entries r).map ChunkEntry.bytes

/-- A chunk without payload for an entry without bytes. -/
def FreesTwice (kept : Option (List UInt8)) (c : Chunk) : Prop :=
  c.chunkType ≠ .abort ∧ c.payload = some [] ∧ kept = some []

instance (kept : Option (List UInt8)) (c : Chunk) : Decidable (FreesTwice kept c) :=
  inferInstanceAs (Decidable (_ ∧ _ ∧ _))

theorem append_eq_none_iff {payload : List UInt8} {ch : ChunkEntry} :
    ch.append payload = none ↔ payload = [] ∧ ch.bytes = [] := by
  unfold ChunkEntry.append
  simp [and_comm]

theorem append_eq_some {payload : List UInt8} {ch : ChunkEntry}
    (h : ¬ (payload = [] ∧ ch.bytes = [])) :
    ch.append payload = some { ch with bytes := ch.bytes ++ payload } := by
  unfold ChunkEntry.append
  rw [if_neg (by simpa [and_comm] using h)]

theorem processChunk_eq_none_iff {entries : List ChunkEntry} {c : Chunk} :
    processChunk entries c = none ↔ FreesTwice (entryBytes entries c.requestId) c := by
  unfold processChunk FreesTwice entryBytes appendChunk finalizeChunk
  cases c.chunkType with
  | abort => simp
  | intermediate | final =>
    cases c.payload with
    | none => simp
    | some payload =>
      cases hfind : findEntry entries c.requestId with
      | none => simp
      | some ch => simp [append_eq_none_iff]

/-- How the loop over received chunks ends: it returns, or the program dies of a buffer that is
freed twice. -/
inductive LoopEnd where
  | status (status : StatusCode)
  | doubleFree
  deriving DecidableEq

/-- The trace of a call: each chunk processed, with the callback made for it. -/
structure Processed where
  chunk : Chunk
  callback : Option Callback
  deriving DecidableEq

/-- `UA_SecureChannel_processChunks` from an offset on, with at most `fuel` iterations: the channel,
the trace, and how the loop ended (`none` if it has not ended yet). -/
def processChunks (channel : Channel) (chunks : List UInt8) :
    (fuel : Nat) → (offset : Nat) → Channel × List Processed × Option LoopEnd
  | 0, _ => (channel, [], none)
  | fuel + 1, offset =>
      match readChunk channel.link chunks offset with
      | (link, .stop status) => ({ channel with link := link }, [], some (.status status))
      | (link, .error _ _ next) =>
          if chunks.length > next then
            processChunks { channel with link := link } chunks fuel next
          else ({ channel with link := link }, [], some (.status StatusCode.good))
      | (link, .chunk chunk next) =>
          match processChunk channel.chunks chunk with
          | none => ({ channel with link := link }, [], some .doubleFree)
          | some (entries, callback) =>
              let channel : Channel := ⟨link, entries⟩
              if chunks.length > next then
                let (channel, trace, ended) := processChunks channel chunks fuel next
                (channel, ⟨chunk, callback⟩ :: trace, ended)
              else (channel, [⟨chunk, callback⟩], some (.status StatusCode.good))

/-- What a channel receives over its life, one call after the other; no channel is left when the
program dies. -/
def receive (channel : Channel) : List (List UInt8 × Nat) → Option Channel × List Processed
  | [] => (some channel, [])
  | (chunks, fuel) :: rest =>
      let (channel, trace, ended) := processChunks channel chunks fuel 0
      if ended = some .doubleFree then (none, trace)
      else
        let (channel, trace') := receive channel rest
        (channel, trace ++ trace')

/-- The chunks found in the received bytes, which do not depend on the messages put together. -/
def chunkStream (link : Link) (chunks : List UInt8) : (fuel : Nat) → (offset : Nat) →
    Link × List Chunk
  | 0, _ => (link, [])
  | fuel + 1, offset =>
      match readChunk link chunks offset with
      | (link, .stop _) => (link, [])
      | (link, .error _ _ next) =>
          if chunks.length > next then chunkStream link chunks fuel next else (link, [])
      | (link, .chunk chunk next) =>
          if chunks.length > next then
            let (link, rest) := chunkStream link chunks fuel next
            (link, chunk :: rest)
          else (link, [chunk])

end FactoryThing.SecureChannel
