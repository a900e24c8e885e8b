import FactoryThing.SecureChannel.Send
import FactoryThing.SecureChannel.SequenceNumbers
import FactoryThing.Encoding.Simulation
import FactoryThing.Encoding.AnnouncedSize

/-!
# The chunk sequence of a message

The sender follows a supply of buffers: every chunk leaves room for the next one until the limits
of the peer are exceeded, which is answered with an abort chunk and no further buffer. The encoder
asks for no exchange after that, whatever it carries on with, so the chunks of a message are
Continue chunks with one Final or Abort chunk at the end, all with right sizes and consecutive
sequence numbers, whenever the sender returns. It returns exactly when the content can be laid out
in payloads up to the refusal (`sendBinaryMessage_iff`).
-/

namespace FactoryThing.SecureChannel

open FactoryThing.Encoding Stateful

variable (token : SecurityToken) {st : SendState}

/-- A chunk has the size it says, and fits into a send buffer. -/
structure WellSized (conf : SendConfig) (chunk : List UInt8) : Prop where
  size_eq : (sizeField chunk).toNat = chunk.length
  header_le : secureMessageHeaderLength ≤ chunk.length
  le_buffer : chunk.length ≤ conf.sendBufferSize.toNat

/-- The sequence numbers that follow `start`. -/
def consecutive (start : UInt32) (n : Nat) : List UInt32 :=
  (List.range n).map fun i => start + 1 + UInt32.ofNat i

/-- The chunks of a message: Continue chunks and then one Final chunk, or an Abort chunk when the
sender returns an error; their sizes are right and their sequence numbers consecutive. -/
structure WellFormed (conf : SendConfig) (start : UInt32) (retval : StatusCode)
    (chunks : List (List UInt8)) : Prop where
  types : ∃ front last, chunks = front ++ [last] ∧
    (∀ c ∈ front, chunkTypeField c = some .intermediate) ∧
    chunkTypeField last = some (if retval = StatusCode.good then .final else .abort)
  sizes : ∀ c ∈ chunks, WellSized conf c
  numbers : chunks.map sequenceNumberField = consecutive start chunks.length

/-- What the layout of a message has used: the number of the payload, the bytes in it, and the size
and number of the chunks before it. -/
structure Usage where
  serial : Nat
  fill : Nat
  messageSizeSoFar : Nat
  chunksSoFar : UInt16
  deriving DecidableEq

/-- The room for payload in a send buffer. -/
def payloadSize (conf : SendConfig) : Nat :=
  conf.sendBufferSize.toNat - secureMessageHeaderLength

/-- A next payload is available as long as the limits of the peer are kept. -/
def payloadSupply (conf : SendConfig) : Supply Usage where
  serial := fun u => u.serial
  room := fun u => payloadSize conf - u.fill
  write := fun u n => { u with fill := u.fill + n }
  next := fun u =>
    if exceedsLimits conf u.messageSizeSoFar u.chunksSoFar (u.fill + secureMessageHeaderLength) then
      none
    else some
      { serial := u.serial + 1
        fill := 0
        messageSizeSoFar := u.messageSizeSoFar + (u.fill + secureMessageHeaderLength)
        chunksSoFar := u.chunksSoFar + 1 }

def usage (s : EncodeState SendState) : Usage where
  serial := s.buffer
  fill := s.pos.before.length
  messageSizeSoFar := s.handle.ci.messageSizeSoFar
  chunksSoFar := s.handle.ci.chunksSoFar

/-- The chunks sent while a message goes on. -/
structure Continuing (conf : SendConfig) (start : UInt32) (requestId : UInt32)
    (contentType : TypeInfo) (st : SendState) : Prop where
  requestId_eq : st.ci.requestId = requestId
  messageType_eq : st.ci.messageType = messageTypeOf contentType.binaryEncodingId
  not_final : st.ci.final = false
  good : st.ci.errorCode = StatusCode.good
  types : ∀ c ∈ st.sent, chunkTypeField c = some .intermediate
  sizes : ∀ c ∈ st.sent, WellSized conf c
  numbers : st.sent.map sequenceNumberField = consecutive start st.sent.length
  sequenceNumber_eq : st.sendSequenceNumber = start + UInt32.ofNat st.sent.length

/-- The state of the encoder while a message goes on. -/
structure Sending (conf : SendConfig) (start : UInt32) (requestId : UInt32)
    (contentType : TypeInfo) (s : EncodeState SendState) : Prop where
  fresh : s.pos.buffer = s.buffer
  encodeBuf_eq : s.encodeBuf = some (payloadSize conf)
  fill_le : s.pos.before.length ≤ payloadSize conf
  continuing : Continuing conf start requestId contentType s.handle

/-- The state after the message was aborted in the middle. -/
def Aborted (conf : SendConfig) (start : UInt32) (s : EncodeState SendState) : Prop :=
  s.handle.ci.final = true ∧
    ∀ retval, retval ≠ StatusCode.good → WellFormed conf start retval s.handle.sent

variable {conf : SendConfig} {start requestId : UInt32} {contentType : TypeInfo}

theorem consecutive_succ (start : UInt32) (n : Nat) :
    consecutive start (n + 1) = consecutive start n ++ [start + UInt32.ofNat n + 1] := by
  have hcomm : start + 1 + UInt32.ofNat n = start + UInt32.ofNat n + 1 := by
    rw [UInt32.add_assoc, UInt32.add_comm 1, UInt32.add_assoc]
  simp [consecutive, List.range_succ, hcomm]

theorem payloadSize_add (hsize : 32 ≤ conf.sendBufferSize.toNat) :
    payloadSize conf + secureMessageHeaderLength = conf.sendBufferSize.toNat := by
  unfold payloadSize secureMessageHeaderLength
  omega

theorem wellSized_chunkBytes (mt : UInt32) (token : SecurityToken) (sequenceNumber id : UInt32)
    {payload : List UInt8} (hsize : 32 ≤ conf.sendBufferSize.toNat)
    (h : payload.length ≤ payloadSize conf) :
    WellSized conf (chunkBytes mt token sequenceNumber id payload) := by
  have hlt : conf.sendBufferSize.toNat < 2 ^ 32 := conf.sendBufferSize.toNat_lt
  have hpayload := payloadSize_add hsize
  constructor
  · rw [sizeField_chunkBytes, length_chunkBytes, UInt32.toNat_ofNat_of_lt']
    show _ < 2 ^ 32
    omega
  · rw [length_chunkBytes]
    omega
  · rw [length_chunkBytes]
    omega

theorem nextChunk
    (hst : Continuing conf start requestId contentType st) (t : ChunkType) {payload : List UInt8}
    (hsize : 32 ≤ conf.sendBufferSize.toNat) (h : payload.length ≤ payloadSize conf)
    {chunk : List UInt8} (hchunk : chunk = chunkBytes (st.ci.messageType + t.toUInt32) token
      (st.sendSequenceNumber + 1) st.ci.requestId payload) :
    chunkTypeField chunk = some t ∧ (∀ c ∈ st.sent ++ [chunk], WellSized conf c) ∧
      (st.sent ++ [chunk]).map sequenceNumberField =
        consecutive start (st.sent ++ [chunk]).length := by
  subst hchunk
  refine ⟨?_, ?_, ?_⟩
  · rw [chunkTypeField_chunkBytes, hst.messageType_eq, chunkTypeOf_messageType]
  · intro c hc
    obtain hc | hc := List.mem_append.mp hc
    · exact hst.sizes c hc
    · rw [List.mem_singleton.mp hc]
      exact wellSized_chunkBytes _ _ _ _ hsize h
  · rw [List.map_append, List.length_append, List.length_singleton, consecutive_succ, hst.numbers,
      List.map_singleton, sequenceNumberField_chunkBytes, hst.sequenceNumber_eq]

theorem length_abortPayload {length : Nat} (h : 8 ≤ length) (errorCode : StatusCode) :
    (abortPayload length errorCode).length = 8 := by
  simp [abortPayload, h, Nat.le_trans (by decide : 4 ≤ 8) h]

theorem refusal_badResponseTooLarge : Refusal StatusCode.badResponseTooLarge := by
  unfold Refusal
  decide

theorem sendChunk_continue {run : List UInt8}
    (hst : Continuing conf start requestId contentType st)
    (hsize : 32 ≤ conf.sendBufferSize.toNat) (hrun : run.length ≤ payloadSize conf)
    (hlimits : exceedsLimits conf st.ci.messageSizeSoFar st.ci.chunksSoFar
      (run.length + secureMessageHeaderLength) = false) :
    ∃ handle, sendChunk conf token st run (some (payloadSize conf)) =
        .ok (StatusCode.good, handle, some (payloadSize conf)) ∧
      Continuing conf start requestId contentType handle ∧
      handle.ci.messageSizeSoFar =
        st.ci.messageSizeSoFar + (run.length + secureMessageHeaderLength) ∧
      handle.ci.chunksSoFar = st.ci.chunksSoFar + 1 := by
  obtain ⟨htype, hsizes, hnumbers⟩ := nextChunk token hst .intermediate hsize hrun rfl
  let chunk := chunkBytes (st.ci.messageType + ChunkType.intermediate.toUInt32) token
    (st.sendSequenceNumber + 1) st.ci.requestId run
  let ci : ChunkInfo := { st.ci with
    chunksSoFar := st.ci.chunksSoFar + 1
    messageSizeSoFar := st.ci.messageSizeSoFar + (run.length + secureMessageHeaderLength) }
  refine ⟨⟨ci, st.sendSequenceNumber + 1, st.sent ++ [chunk]⟩, ?_, ?_, rfl, rfl⟩
  · simp only [sendChunk, hlimits, hst.good, hst.not_final]
    simp [ci, chunk, hst.good, hst.not_final, payloadSize]
  · refine ⟨hst.requestId_eq, hst.messageType_eq, hst.not_final, hst.good, ?_, hsizes, hnumbers, ?_⟩
    · intro c hc
      obtain hc | hc := List.mem_append.mp hc
      · exact hst.types c hc
      · rw [List.mem_singleton.mp hc]
        exact htype
    · rw [hst.sequenceNumber_eq, List.length_append, List.length_singleton, UInt32.ofNat_add,
        UInt32.add_assoc]
      rfl

theorem sendChunk_last {run : List UInt8}
    (hst : Continuing conf start requestId contentType st)
    (hsize : 32 ≤ conf.sendBufferSize.toNat) (hrun : run.length ≤ payloadSize conf)
    (final : Bool) (errorCode : StatusCode) {status : StatusCode}
    (hstatus : status = if exceedsLimits conf st.ci.messageSizeSoFar st.ci.chunksSoFar
      (run.length + secureMessageHeaderLength) then StatusCode.badResponseTooLarge else errorCode)
    (hlast : final = true ∨ status ≠ StatusCode.good) :
    ∃ handle, sendChunk conf token
        { st with ci.final := final, ci.errorCode := errorCode } run (some (payloadSize conf)) =
          .ok (status, handle, none) ∧
      handle.ci.final = true ∧
      ∀ retval, (retval = StatusCode.good ↔ status = StatusCode.good) →
        WellFormed conf start retval handle.sent := by
  let t : ChunkType := if status = StatusCode.good then .final else .abort
  let payload := if status = StatusCode.good then run else abortPayload (payloadSize conf) status
  have hpayload : payload.length ≤ payloadSize conf := by
    have h8 : 8 ≤ payloadSize conf := by
      unfold payloadSize secureMessageHeaderLength
      omega
    by_cases hgood : status = StatusCode.good
    · simpa [payload, hgood] using hrun
    · simpa [payload, hgood, length_abortPayload h8] using h8
  obtain ⟨htype, hsizes, hnumbers⟩ := nextChunk token hst t hsize hpayload rfl
  let chunk := chunkBytes (st.ci.messageType + t.toUInt32) token (st.sendSequenceNumber + 1)
    st.ci.requestId payload
  let ci : ChunkInfo := { st.ci with
    chunksSoFar := st.ci.chunksSoFar + 1
    messageSizeSoFar := st.ci.messageSizeSoFar + (payload.length + secureMessageHeaderLength)
    final := true
    errorCode := status }
  refine ⟨⟨ci, st.sendSequenceNumber + 1, st.sent ++ [chunk]⟩, ?_, rfl, ?_⟩
  · by_cases hgood : status = StatusCode.good
    · have hfinal : final = true := hlast.resolve_right fun h => h hgood
      simp [sendChunk, ← hstatus, ci, chunk, payload, t, hgood, hfinal]
    · simp [sendChunk, ← hstatus, ci, chunk, payload, t, hgood]
  · intro retval hretval
    refine ⟨⟨st.sent, chunk, rfl, hst.types, ?_⟩, hsizes, hnumbers⟩
    rw [htype]
    simp only [t, hretval]

theorem Continuing.update_self
    (hst : Continuing conf start requestId contentType st) :
    { st with ci.final := false, ci.errorCode := StatusCode.good } = st := by
  rw [← hst.not_final, ← hst.good]

theorem sendChunk_follows (hsize : 32 ≤ conf.sendBufferSize.toNat) :
    Follows (sendChunk conf token) (payloadSupply conf) usage
      (Sending conf start requestId contentType) (Aborted conf start) where
  fresh := fun s hs => hs.fresh
  serial := fun s _ => rfl
  room := by
    intro s hs
    simp [EncodeState.room, hs.encodeBuf_eq, payloadSupply, usage]
  write := by
    intro s bytes hs hle
    have hfill := hs.fill_le
    simp only [EncodeState.room, hs.encodeBuf_eq, Option.getD_some] at hle
    refine ⟨⟨hs.fresh, hs.encodeBuf_eq, ?_, hs.continuing⟩, ?_⟩
    · rw [EncodeState.write_before, List.length_append]
      omega
    · simp [usage, payloadSupply]
  next := by
    intro s t hs hnext
    have hlimits : exceedsLimits conf s.handle.ci.messageSizeSoFar s.handle.ci.chunksSoFar
        (s.pos.before.length + secureMessageHeaderLength) = false := by
      by_contra h
      simp [payloadSupply, usage, h] at hnext
    obtain ⟨handle, hcall, hhandle, hsizeSoFar, hchunks⟩ :=
      sendChunk_continue token hs.continuing hsize hs.fill_le hlimits
    refine ⟨handle, some (payloadSize conf), hs.encodeBuf_eq ▸ hcall,
      ⟨rfl, rfl, Nat.zero_le _, hhandle⟩, ?_⟩
    simp only [payloadSupply, usage, hlimits] at hnext
    rw [← Option.some.inj hnext]
    simp [usage, exchanged, hsizeSoFar, hchunks]
  refuse := by
    intro s hs hnext
    have hlimits : exceedsLimits conf s.handle.ci.messageSizeSoFar s.handle.ci.chunksSoFar
        (s.pos.before.length + secureMessageHeaderLength) = true := by
      by_contra h
      simp [payloadSupply, usage, h] at hnext
    obtain ⟨handle, hcall, hfinal, hwell⟩ := sendChunk_last token hs.continuing hsize hs.fill_le
      false StatusCode.good rfl
      (Or.inr (by rw [hlimits]; exact refusal_badResponseTooLarge.1))
    rw [hs.continuing.update_self, ← hs.encodeBuf_eq, hlimits] at hcall
    refine ⟨StatusCode.badResponseTooLarge, handle, hcall, refusal_badResponseTooLarge, hfinal, ?_⟩
    intro retval hretval
    apply hwell
    rw [hlimits]
    exact ⟨fun h => absurd h hretval, fun h => absurd h refusal_badResponseTooLarge.1⟩

theorem run_calm {H : Type} (fuel : Nat) (callback : Option (ExchangeEncodeBuffer H)) (sc : Script)
    (hfree : sc.FailFree) (hcalm : sc.Calm) {s : EncodeState H} (hfits : sc.bytes.length ≤ s.room) :
    (sc.run fuel callback).run s = .ok (StatusCode.good, s.write sc.bytes) := by
  induction sc generalizing s with
  | done => rw [Script.bytes, EncodeState.write_nil, Script.run, StateT.run_pure]; rfl
  | write bytes =>
    have hle : ¬ bytes.length > s.room := Nat.not_lt.mpr hfits
    rw [Script.run, run_encodePrimitive, if_neg hle]
    rfl
  | copy unit mem => exact hcalm.elim
  | fail status bad => exact hfree.elim
  | failAfter sc status bad ih => exact hfree.elim
  | both a b iha ihb =>
    simp only [Script.bytes, List.length_append] at hfits ⊢
    have ha := iha hfree.1 hcalm.1 (s := s) (by omega)
    have hb := ihb hfree.2 hcalm.2 (s := s.write a.bytes)
      (by rw [EncodeState.room_write]; omega)
    rw [EncodeState.write_write] at hb
    exact run_orStatus_ok.mpr ⟨_, _, ha, _, hb, (good_or _).symm⟩
  | andThen a b iha ihb =>
    simp only [Script.bytes, List.length_append] at hfits ⊢
    have ha := iha hfree.1 hcalm.1 (s := s) (by omega)
    have hb := ihb hfree.2 hcalm.2 (s := s.write a.bytes)
      (by rw [EncodeState.room_write]; omega)
    rw [EncodeState.write_write] at hb
    refine run_bind_ok.mpr ⟨_, _, ha, ?_⟩
    rwa [if_pos rfl]
  | retry sc ih => exact hcalm.elim

theorem failFree_encodingTypeId (type : TypeInfo) (encoding : UInt8) :
    (nodeIdScript (encodingTypeId type) encoding).FailFree := by
  show (ite _ _ (ite _ _ _) : Script).FailFree
  split
  · exact ⟨⟨trivial, trivial⟩, trivial⟩
  · split
    · exact ⟨⟨trivial, trivial⟩, trivial⟩
    · exact ⟨trivial, trivial⟩

theorem nodeIdCalcSizeBinary_encodingTypeId (type : TypeInfo) :
    nodeIdCalcSizeBinary (encodingTypeId type) ≤ 7 := by
  show 1 + (ite _ _ (ite _ _ _) : Nat) ≤ 7
  split
  · omega
  · split
    · omega
    · omega

theorem length_encodeTypeId (contentType : TypeInfo) {length : Nat} (h : 7 ≤ length) :
    (encodeTypeId contentType length).length =
      nodeIdCalcSizeBinary (encodingTypeId contentType) := by
  have hsize := nodeIdCalcSizeBinary_encodingTypeId contentType
  have hfree := failFree_encodingTypeId contentType 0
  have hlength := length_nodeIdScript hfree
  let s : EncodeState Unit := ⟨0, some length, ⟨0, []⟩, ()⟩
  have hrun : encodeBinary 1 none (.nodeId (encodingTypeId contentType)) () length [] =
      .ok (StatusCode.good, s.write (nodeIdScript (encodingTypeId contentType) 0).bytes) := by
    have hfits : (nodeIdScript (encodingTypeId contentType) 0).bytes.length ≤ s.room := by
      simp only [s, EncodeState.room, hlength, Option.getD_some, List.length_nil]
      omega
    have hid := run_calm 1 none _ hfree (calm_encodingTypeId contentType 0) hfits
    have hloop : (encodeWithExchange none
        ((nodeIdScript (encodingTypeId contentType) 0).run 1 none) 1).run s =
          .ok (StatusCode.good, s.write (nodeIdScript (encodingTypeId contentType) 0).bytes) := by
      refine run_encodeWithExchange_succ_ok.mpr ⟨_, _, hid, ?_⟩
      rw [if_neg (by decide)]
      exact ⟨rfl, rfl⟩
    rw [encodeBinary, ← run_membersScript]
    refine run_bind_ok.mpr ⟨StatusCode.good, _, hloop, ?_⟩
    rw [if_pos rfl]
    rfl
  rw [encodeTypeId, hrun]
  exact hlength

/-- The payload at the start of a message: the type id is in it. -/
def initialUsage (contentType : TypeInfo) : Usage where
  serial := 0
  fill := nodeIdCalcSizeBinary (encodingTypeId contentType)
  messageSizeSoFar := 0
  chunksSoFar := 0

/-- The content of a message can be laid out in payloads, up to the one the peer refuses. -/
def LaidInPayloads (conf : SendConfig) (content : Value) (contentType : TypeInfo) : Prop :=
  ∃ out, LaysOut (payloadSupply conf) (membersScript content.members) (initialUsage contentType) out

/-- The state in which `UA_SecureChannel_sendBinaryMessage` calls the encoder. -/
def messageStart (conf : SendConfig) (start requestId : UInt32) (contentType : TypeInfo) :
    EncodeState SendState where
  buffer := 0
  encodeBuf := some (payloadSize conf)
  pos := ⟨0, encodeTypeId contentType (payloadSize conf)⟩
  handle :=
    { ci := initialChunkInfo requestId contentType, sendSequenceNumber := start, sent := [] }

theorem sending_messageStart (start requestId : UInt32) (contentType : TypeInfo)
    (hsize : 32 ≤ conf.sendBufferSize.toNat) :
    Sending conf start requestId contentType (messageStart conf start requestId contentType) ∧
      usage (messageStart conf start requestId contentType) = initialUsage contentType := by
  have h8 : 8 ≤ payloadSize conf := by
    unfold payloadSize secureMessageHeaderLength
    omega
  have hid := length_encodeTypeId contentType (show 7 ≤ payloadSize conf by omega)
  have hle := nodeIdCalcSizeBinary_encodingTypeId contentType
  refine ⟨⟨rfl, rfl, ?_, ⟨rfl, rfl, rfl, rfl, ?_, ?_, rfl, ?_⟩⟩, ?_⟩
  · show (encodeTypeId contentType (payloadSize conf)).length ≤ payloadSize conf
    omega
  · exact fun c hc => nomatch hc
  · exact fun c hc => nomatch hc
  · exact (UInt32.add_zero start).symm
  · simp [usage, messageStart, initialUsage, initialChunkInfo, hid]

theorem finishMessage_wellFormed (hsize : 32 ≤ conf.sendBufferSize.toNat)
    {s s' : EncodeState SendState} {r : StatusCode} {out : Outcome Usage}
    (hends : Ends (Sending conf start requestId contentType) (Aborted conf start) usage s s'
      r out) :
    ∃ retval st, finishMessage conf token r s' = .ok (retval, st) ∧
      WellFormed conf start retval st.sent := by
  cases out with
  | fits t =>
    obtain ⟨rfl, hs, -, -⟩ := hends
    obtain ⟨handle, hcall, -, hwell⟩ := sendChunk_last token hs.continuing hsize hs.fill_le
      true StatusCode.good rfl (Or.inl rfl)
    refine ⟨_, handle, ?_, hwell _ Iff.rfl⟩
    rw [finishMessage, if_neg (by decide), hs.encodeBuf_eq]
    have hupdate : { s'.handle with ci.final := true } =
        { s'.handle with ci.final := true, ci.errorCode := StatusCode.good } := by
      rw [← hs.continuing.good]
    rw [hupdate, hcall]
  | cut t =>
    obtain ⟨rfl, hs, -, -⟩ := hends
    have hstatus : (if exceedsLimits conf s'.handle.ci.messageSizeSoFar s'.handle.ci.chunksSoFar
        (s'.pos.before.length + secureMessageHeaderLength) then StatusCode.badResponseTooLarge
        else StatusCode.badEncodingLimitsExceeded) ≠ StatusCode.good := by
      split
      · decide
      · decide
    obtain ⟨handle, hcall, -, hwell⟩ := sendChunk_last token hs.continuing hsize hs.fill_le
      false StatusCode.badEncodingLimitsExceeded rfl (Or.inr hstatus)
    refine ⟨StatusCode.badEncodingLimitsExceeded, handle, ?_, hwell _ ?_⟩
    · have hupdate : { s'.handle with ci.errorCode := StatusCode.badEncodingLimitsExceeded } =
          { s'.handle with
            ci.final := false, ci.errorCode := StatusCode.badEncodingLimitsExceeded } := by
        rw [← hs.continuing.not_final]
      rw [finishMessage, if_pos (by decide), if_neg (by simp [hs.continuing.not_final]),
        hs.encodeBuf_eq, hupdate, hcall]
    · exact ⟨fun h => absurd h (by decide), fun h => absurd h hstatus⟩
  | stopped =>
    obtain ⟨hrefusal, haborted, -, -⟩ := hends
    refine ⟨r, s'.handle, ?_, haborted.2 r hrefusal.1⟩
    rw [finishMessage, if_pos hrefusal.1, if_pos haborted.1]

theorem laidInPayloads_of_sent {conf : SendConfig} {token : SecurityToken}
    {start requestId : UInt32}
    {content : Value} {contentType : TypeInfo} (hsize : 32 ≤ conf.sendBufferSize.toNat)
    (hfree : (membersScript content.members).FailFree) {fuel : Nat} {retval : StatusCode}
    (h : sendBinaryMessage fuel conf token start requestId content contentType = .ok (retval, st)) :
    LaidInPayloads conf content contentType := by
  have hf : Follows (sendChunk conf token) (payloadSupply conf) usage
      (Sending conf start requestId contentType) (Aborted conf start) :=
    sendChunk_follows token hsize
  obtain ⟨hlive, husage⟩ := sending_messageStart start requestId contentType hsize
  rw [sendBinaryMessage] at h
  split at h
  · next r s' hencode =>
    rw [encodeBinary, ← run_membersScript] at hencode
    obtain ⟨out, hlays, -⟩ := lays_of_run hf _ hfree (tame_membersScript _) hlive hencode
    exact ⟨out, husage ▸ hlays⟩
  · cases h

/-- The sender sends a well-formed chunk sequence exactly when the content can be laid out. -/
theorem sendBinaryMessage_iff (conf : SendConfig) (token : SecurityToken)
    (start requestId : UInt32) (content : Value) (contentType : TypeInfo)
    (hsize : 32 ≤ conf.sendBufferSize.toNat) (fuel₁ length₁ : Nat) (one : EncodeState Unit)
    (hone : encodeBinary fuel₁ none content () length₁ [] = .ok (StatusCode.good, one)) :
    (∃ fuel retval st, sendBinaryMessage fuel conf token start requestId content contentType =
        .ok (retval, st) ∧ WellFormed conf start retval st.sent) ↔
      LaidInPayloads conf content contentType := by
  obtain ⟨hfree, -⟩ := encodeBinary_none_good hone
  constructor
  · intro h
    obtain ⟨fuel, retval, st, h, -⟩ := h
    exact laidInPayloads_of_sent hsize hfree h
  · intro h
    obtain ⟨out, hlays⟩ := h
    have hf : Follows (sendChunk conf token) (payloadSupply conf) usage
        (Sending conf start requestId contentType) (Aborted conf start) :=
      sendChunk_follows token hsize
    obtain ⟨hlive, husage⟩ := sending_messageStart start requestId contentType hsize
    obtain ⟨bound, hbound⟩ :=
      (run_of_lays hf hlays hfree (tame_membersScript _)).exists_bound
    obtain ⟨r, s', hrun, hends⟩ := hbound bound (Nat.le_refl bound) _ hlive husage
    obtain ⟨retval, st, hfinish, hwell⟩ := finishMessage_wellFormed token hsize hends
    refine ⟨bound, retval, st, ?_, hwell⟩
    rw [run_membersScript] at hrun
    have hencode : encodeBinary bound (some (sendChunk conf token)) content
        { ci := initialChunkInfo requestId contentType, sendSequenceNumber := start, sent := [] }
        (payloadSize conf) (encodeTypeId contentType (payloadSize conf)) = .ok (r, s') := hrun
    rw [sendBinaryMessage, ← payloadSize, hencode]
    exact hfinish

/-- A type with an id of two bytes and an encoding id of four bytes. -/
def sampleType : TypeInfo where
  typeId := ⟨0, .numeric 200⟩
  memSize := 8
  binaryEncodingId := 631

/-- Six numbers: with the type id, 28 bytes. -/
def sixNumbers : Value :=
  .structure (.scalar (.uint32 5) (.scalar (.uint32 6) (.scalar (.uint32 7)
    (.scalar (.uint32 8) (.scalar (.uint32 9) (.scalar (.uint32 10) .nil))))))

theorem sendBinaryMessage_sixNumbers (conf : SendConfig)
    (h : conf = ⟨32, 0, 0⟩ ∨ conf = ⟨32, 200, 4⟩) :
    ∃ st, sendBinaryMessage 8 conf ⟨1, 1⟩ 50 7 sixNumbers sampleType = .ok (StatusCode.good, st) ∧
      st.sent.length = 4 := by
  have hsent : (sendBinaryMessage 8 conf ⟨1, 1⟩ 50 7 sixNumbers sampleType).toOption.map
      (fun r => (r.1, r.2.sent.length)) = some (StatusCode.good, 4) := by
    obtain rfl | rfl := h <;> decide +kernel
  cases hmessage : sendBinaryMessage 8 conf ⟨1, 1⟩ 50 7 sixNumbers sampleType with
  | error e =>
    rw [hmessage] at hsent
    cases hsent
  | ok r =>
    rw [hmessage] at hsent
    obtain ⟨hstatus, hlength⟩ := Prod.mk.inj (Option.some.inj hsent)
    exact ⟨r.2, congrArg Except.ok (Prod.ext hstatus rfl), hlength⟩

/-- Six numbers are sent in four chunks. -/
theorem sendBinaryMessage_iff_numbers :
    (∃ st, sendBinaryMessage 8 ⟨32, 0, 0⟩ ⟨1, 1⟩ 50 7 sixNumbers sampleType =
      .ok (StatusCode.good, st) ∧ st.sent.length = 4) ∧
    ((∃ fuel retval st, sendBinaryMessage fuel ⟨32, 0, 0⟩ ⟨1, 1⟩ 50 7 sixNumbers sampleType =
        .ok (retval, st) ∧ WellFormed ⟨32, 0, 0⟩ 50 retval st.sent) ↔
      LaidInPayloads ⟨32, 0, 0⟩ sixNumbers sampleType) :=
  ⟨sendBinaryMessage_sixNumbers ⟨32, 0, 0⟩ (.inl rfl),
   sendBinaryMessage_iff ⟨32, 0, 0⟩ ⟨1, 1⟩ 50 7 sixNumbers sampleType (by decide) 2 32
    ⟨0, some 32,
      ⟨0, [5, 0, 0, 0, 6, 0, 0, 0, 7, 0, 0, 0, 8, 0, 0, 0, 9, 0, 0, 0, 10, 0, 0, 0]⟩, ()⟩ rfl⟩

theorem length_of_fits {a : Script} {u t : Usage} (hcalm : a.Calm) (hfree : a.FailFree)
    (h : LaysOut (payloadSupply conf) a u (.fits t)) :
    a.bytes.length ≤ payloadSize conf - u.fill ∧ t.fill = u.fill + a.bytes.length := by
  induction a generalizing u t with
  | done =>
    cases h
    exact ⟨Nat.zero_le _, rfl⟩
  | write bytes =>
    cases h with
    | write h => exact ⟨h, rfl⟩
  | copy unit mem => exact hcalm.elim
  | fail status bad => exact hfree.elim
  | failAfter sc status bad ih => exact hfree.elim
  | both a b iha ihb =>
    have hparts : ∃ v, LaysOut (payloadSupply conf) a u (.fits v) ∧
        LaysOut (payloadSupply conf) b v (.fits t) := by
      generalize hout : Outcome.fits t = out at h
      cases h with
      | both ha hb => exact ⟨_, ha, hout ▸ hb⟩
      | @bothCut _ _ _ _ out' _ _ => cases out' <;> cases hout
      | bothStop ha => cases hout
    obtain ⟨v, ha, hb⟩ := hparts
    obtain ⟨hlea, hfilla⟩ := iha hcalm.1 hfree.1 ha
    obtain ⟨hleb, hfillb⟩ := ihb hcalm.2 hfree.2 hb
    simp only [Script.bytes, List.length_append]
    omega
  | andThen a b iha ihb =>
    cases h with
    | andThen ha hb =>
      obtain ⟨hlea, hfilla⟩ := iha hcalm.1 hfree.1 ha
      obtain ⟨hleb, hfillb⟩ := ihb hcalm.2 hfree.2 hb
      simp only [Script.bytes, List.length_append]
      omega
  | retry sc ih => exact hcalm.elim

theorem not_laysOut_of_long {a : Script} (hcalm : a.Calm) (hfree : a.FailFree)
    (hlong : payloadSize conf < a.bytes.length) (hsize : conf.maxMessageSize = 0)
    (hcount : conf.maxChunkCount = 0) {u : Usage} {out : Outcome Usage} :
    ¬ LaysOut (payloadSupply conf) (.retry a) u out := by
  intro h
  generalize hsc : Script.retry a = sc at h
  induction h with
  | retry h =>
    obtain rfl := Script.retry.inj hsc
    have hle := (length_of_fits hcalm hfree h).1
    omega
  | retryStop h =>
    obtain rfl := Script.retry.inj hsc
    exact not_stopped_of_calm hcalm h rfl
  | retryNext h hwhole hnext hrest ih ihrest => exact ihrest hsc
  | retryRefused h hwhole hnext =>
    simp [payloadSupply, exceedsLimits, hsize, hcount] at hnext
  | _ => exact nomatch hsc

/-- A localized text whose locale takes more than one payload. -/
def longText : Value :=
  .structure (.scalar (.localizedText ⟨.mem (List.replicate 20 97), .mem [98]⟩) .nil)

def exampleGuid : Guid := ⟨1, 2, 3, ⟨#[1, 2, 3, 4, 5, 6, 7, 8], rfl⟩⟩

def longGuid : Value := .structure (.scalar (.guid exampleGuid) .nil)

/-- The second string of the text is cut off after the first one went into an earlier chunk, and
`pos` is set back into the buffer that was sent. A Guid does not fit into the 8 bytes of payload
of the smallest send buffer: Continue chunks without payload are sent forever. -/
theorem longText_longGuid_neverSent :
    encodeBinary 2 none longText () 40 [] = .ok (StatusCode.good, ⟨0, some 40,
      ⟨0, [3, 20, 0, 0, 0] ++ List.replicate 20 97 ++ [1, 0, 0, 0, 98]⟩, ()⟩) ∧
    encodeBinary 2 none longGuid () 40 [] = .ok (StatusCode.good, ⟨0, some 40,
      ⟨0, [1, 0, 0, 0, 2, 0, 3, 0, 1, 2, 3, 4, 5, 6, 7, 8]⟩, ()⟩) ∧
    (¬ ∃ fuel retval st, sendBinaryMessage fuel ⟨40, 0, 0⟩ ⟨1, 1⟩ 50 7 longText sampleType =
      .ok (retval, st) ∧ WellFormed ⟨40, 0, 0⟩ 50 retval st.sent) ∧
    ¬ ∃ fuel retval st, sendBinaryMessage fuel ⟨32, 0, 0⟩ ⟨1, 1⟩ 50 7 longGuid sampleType =
      .ok (retval, st) ∧ WellFormed ⟨32, 0, 0⟩ 50 retval st.sent := by
  refine ⟨rfl, rfl, ?_, ?_⟩
  · intro h
    obtain ⟨fuel, retval, st, h, -⟩ := h
    match fuel with
    | 0 | 1 => exact nomatch h
    | n + 2 =>
      have htorn : sendBinaryMessage (n + 2) ⟨40, 0, 0⟩ ⟨1, 1⟩ 50 7 longText sampleType =
          .error Fault.outOfBounds := rfl
      rw [htorn] at h
      exact nomatch h
  · intro h
    obtain ⟨fuel, retval, st, h, -⟩ := h
    have hcalm : (guidScript exampleGuid).Calm := ⟨⟨⟨trivial, trivial⟩, trivial⟩, trivial⟩
    have hfree : (guidScript exampleGuid).FailFree := ⟨⟨⟨trivial, trivial⟩, trivial⟩, trivial⟩
    obtain ⟨out, hlays⟩ := laidInPayloads_of_sent (by decide)
      (show (membersScript longGuid.members).FailFree from ⟨hfree, trivial⟩) h
    have hnever : ∀ u out, ¬ LaysOut (payloadSupply ⟨32, 0, 0⟩) (.retry (guidScript exampleGuid))
        u out := fun u out => not_laysOut_of_long hcalm hfree (by decide) rfl rfl
    cases hlays with
    | andThen ha hb => exact hnever _ _ ha
    | andThenCut ha => exact hnever _ _ ha
    | andThenStop ha => exact hnever _ _ ha

end FactoryThing.SecureChannel
