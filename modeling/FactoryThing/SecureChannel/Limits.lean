import FactoryThing.SecureChannel.ChunkSequence
import FactoryThing.Encoding.Exchanges

/-!
# The limits of the peer

`UA_SecureChannel_sendChunk` counts the chunks of a message in 16 bits and compares the count with
a limit of 32 bits. The message size is counted exactly. A message keeps within the limits exactly
if each of its chunks beyond the chunk limit is aborted for another reason or the limit is below
65535 (`sendBinaryMessage_respects`).
-/

namespace FactoryThing.SecureChannel

open FactoryThing.Encoding

/-- The chunks of a message that count for the limits. -/
def nonAbort (sent : List (List UInt8)) : List (List UInt8) :=
  sent.filter fun c => chunkTypeField c ≠ some .abort

/-- The limits of the peer, where zero is unlimited. -/
structure WithinLimits (conf : SendConfig) (sent : List (List UInt8)) : Prop where
  count : conf.maxChunkCount ≠ 0 → (nonAbort sent).length ≤ conf.maxChunkCount.toNat
  size : conf.maxMessageSize ≠ 0 → (nonAbort sent).flatten.length ≤ conf.maxMessageSize.toNat

/-- The message keeps within the limits of the peer, and if it is not sent to its end an abort
chunk ends it. -/
structure RespectsLimits (conf : SendConfig) (retval : StatusCode) (sent : List (List UInt8)) :
    Prop where
  within : WithinLimits conf sent
  ended : ∃ front last, sent = front ++ [last] ∧
    (∀ c ∈ front, chunkTypeField c = some .intermediate) ∧
    chunkTypeField last = some (if retval = StatusCode.good then .final else .abort)

/-- A call of `UA_SecureChannel_sendChunk` by the encoder, for the final chunk, or to abort. -/
inductive Piece where
  | exchange (run : List UInt8)
  | last (run : List UInt8)
  | abort (run : List UInt8) (errorCode : StatusCode)
  deriving DecidableEq

def Piece.run : Piece → List UInt8
  | exchange run => run
  | last run => run
  | abort run _ => run

/-- What `UA_SecureChannel_sendBinaryMessage` sets in front of the call. -/
def Piece.prepare : Piece → SendState → SendState
  | exchange _, st => st
  | last _, st => { st with ci.final := true }
  | abort _ errorCode, st => { st with ci.errorCode := errorCode }

/-- The call, on the state of the sender and the buffer. -/
def sendPiece (conf : SendConfig) (token : SecurityToken) (s : SendState × Option Nat)
    (p : Piece) : Except Fault ((SendState × Option Nat) × StatusCode) :=
  exchangeStep (sendChunk conf token) (p.prepare s.1, s.2) p.run

/-- The next chunk would exceed the message size limit. -/
def TooLong (conf : SendConfig) (st : SendState) (p : Piece) : Prop :=
  conf.maxMessageSize ≠ 0 ∧ conf.maxMessageSize.toNat <
    st.sent.flatten.length + (p.run.length + secureMessageHeaderLength)

/-- The chunk count can be told from the limit, or the chunk is aborted for another reason. -/
def CountedRight (conf : SendConfig) (s : SendState × Option Nat) (p : Piece) : Prop :=
  conf.maxChunkCount.toNat < 65535 ∨ s.1.sent.length < conf.maxChunkCount.toNat ∨
    (p.prepare s.1).ci.errorCode ≠ StatusCode.good ∨ TooLong conf s.1 p

/-- The start of a message: the type id is in the buffer already. -/
def startOf (conf : SendConfig) (start requestId : UInt32) (contentType : TypeInfo) :
    SendState × Option Nat :=
  (⟨initialChunkInfo requestId contentType, start, []⟩, some (payloadSize conf))

/-! ## What one call does -/

/-- A message that goes on: all chunks so far are intermediate and counted. -/
structure Open (contentType : TypeInfo) (st : SendState) : Prop where
  messageType_eq : st.ci.messageType = messageTypeOf contentType.binaryEncodingId
  not_final : st.ci.final = false
  good : st.ci.errorCode = StatusCode.good
  types : ∀ c ∈ st.sent, chunkTypeField c = some .intermediate
  size_eq : st.ci.messageSizeSoFar = st.sent.flatten.length
  count_eq : st.ci.chunksSoFar = UInt16.ofNat st.sent.length

/-- A message that has ended with a final chunk or an abort. -/
structure Closed (st : SendState) : Prop where
  final : st.ci.final = true
  ended : ∃ front last, st.sent = front ++ [last] ∧
    (∀ c ∈ front, chunkTypeField c = some .intermediate) ∧
    chunkTypeField last = some (if st.ci.errorCode = StatusCode.good then .final else .abort)

/-- Either there is a buffer and the message goes on, or there is none any more. -/
def Sound (contentType : TypeInfo) (s : SendState × Option Nat) : Prop :=
  (s.2.isSome ∧ Open contentType s.1) ∨ (s.2 = none ∧ Closed s.1)

variable {conf : SendConfig} {token : SecurityToken} {contentType : TypeInfo}

/-- The status of the call: exceeded limits go before the status it was given. -/
def pieceStatus (conf : SendConfig) (st : SendState) (p : Piece) : StatusCode :=
  if exceedsLimits conf st.ci.messageSizeSoFar st.ci.chunksSoFar
      (p.run.length + secureMessageHeaderLength) then StatusCode.badResponseTooLarge
  else (p.prepare st).ci.errorCode

/-- The type of the chunk that the call sends. -/
def pieceType (conf : SendConfig) (st : SendState) (p : Piece) : ChunkType :=
  if pieceStatus conf st p ≠ StatusCode.good then .abort
  else if (p.prepare st).ci.final then .final else .intermediate

theorem prepare_counters (p : Piece) (st : SendState) :
    (p.prepare st).ci.messageSizeSoFar = st.ci.messageSizeSoFar ∧
      (p.prepare st).ci.chunksSoFar = st.ci.chunksSoFar ∧
      (p.prepare st).ci.messageType = st.ci.messageType ∧ (p.prepare st).sent = st.sent := by
  cases p with
  | exchange run => exact ⟨rfl, rfl, rfl, rfl⟩
  | last run => exact ⟨rfl, rfl, rfl, rfl⟩
  | abort run errorCode => exact ⟨rfl, rfl, rfl, rfl⟩

/-- The payload that is sent for a piece. -/
def piecePayload (conf : SendConfig) (st : SendState) (length : Nat) (p : Piece) : List UInt8 :=
  if pieceStatus conf st p ≠ StatusCode.good then abortPayload length (pieceStatus conf st p)
  else p.run

theorem sendPiece_some (conf : SendConfig) (token : SecurityToken) (st : SendState) (length : Nat)
    (p : Piece) :
    sendPiece conf token (st, some length) p =
      .ok ((⟨{ (p.prepare st).ci with
          chunksSoFar := st.ci.chunksSoFar + 1
          messageSizeSoFar := st.ci.messageSizeSoFar +
            ((piecePayload conf st length p).length + secureMessageHeaderLength)
          final := (p.prepare st).ci.final || decide (pieceStatus conf st p ≠ StatusCode.good)
          errorCode := pieceStatus conf st p },
        (p.prepare st).sendSequenceNumber + 1,
        st.sent ++ [chunkBytes (st.ci.messageType + (pieceType conf st p).toUInt32) token
          ((p.prepare st).sendSequenceNumber + 1) (p.prepare st).ci.requestId
          (piecePayload conf st length p)]⟩,
        if pieceType conf st p = .intermediate then
          some (conf.sendBufferSize.toNat - secureMessageHeaderLength) else none),
        pieceStatus conf st p) := by
  obtain ⟨hsize, hcount, hmt, hsent⟩ := prepare_counters p st
  have hstatus : (if exceedsLimits conf (p.prepare st).ci.messageSizeSoFar
      (p.prepare st).ci.chunksSoFar (p.run.length + secureMessageHeaderLength) then
      StatusCode.badResponseTooLarge else (p.prepare st).ci.errorCode) = pieceStatus conf st p := by
    rw [hsize, hcount]
    rfl
  simp only [sendPiece, exchangeStep, sendChunk, hstatus]
  simp only [hsize, hcount, hmt, hsent, piecePayload, pieceType, decide_eq_true_eq]
  by_cases hgood : pieceStatus conf st p = StatusCode.good
  · by_cases hfinal : (p.prepare st).ci.final = true
    · simp [hgood, hfinal]
    · simp [hgood, hfinal]
  · simp [hgood]

/-- The chunk that is sent for a piece. -/
def pieceChunk (conf : SendConfig) (token : SecurityToken) (st : SendState) (length : Nat)
    (p : Piece) : List UInt8 :=
  chunkBytes (st.ci.messageType + (pieceType conf st p).toUInt32) token
    ((p.prepare st).sendSequenceNumber + 1) (p.prepare st).ci.requestId
    (piecePayload conf st length p)

variable {st : SendState} {p : Piece} {r : StatusCode} {s : SendState × Option Nat}

theorem chunkTypeField_pieceChunk (conf : SendConfig) (token : SecurityToken)
    (h : Open contentType st) (length : Nat) (p : Piece) :
    chunkTypeField (pieceChunk conf token st length p) = some (pieceType conf st p) := by
  rw [pieceChunk, chunkTypeField_chunkBytes, h.messageType_eq, chunkTypeOf_messageType]

theorem length_pieceChunk (token : SecurityToken) (length : Nat)
    (h : pieceStatus conf st p = StatusCode.good) :
    (pieceChunk conf token st length p).length = p.run.length + secureMessageHeaderLength := by
  rw [pieceChunk, length_chunkBytes, piecePayload, if_neg (by simp [h])]

theorem pieceType_eq_abort :
    pieceType conf st p = .abort ↔ pieceStatus conf st p ≠ StatusCode.good := by
  unfold pieceType
  split
  · next h => simp [h]
  · next h =>
    split
    · simp [h]
    · simp [h]

theorem sound_sendPiece {s' : SendState × Option Nat} (h : Sound contentType s)
    (hstep : sendPiece conf token s p = .ok (s', r)) :
    Sound contentType s' ∧ r = s'.1.ci.errorCode ∧ ∃ length, s.2 = some length ∧
      Open contentType s.1 ∧ r = pieceStatus conf s.1 p ∧
      (s'.2 = none ↔ pieceType conf s.1 p ≠ .intermediate) ∧
      s'.1.sent = s.1.sent ++ [pieceChunk conf token s.1 length p] := by
  obtain ⟨st, encodeBuf⟩ := s
  cases encodeBuf with
  | none => exact nomatch hstep
  | some length =>
    have hopen : Open contentType st := h.elim And.right fun h => nomatch h.1
    rw [sendPiece_some] at hstep
    injection hstep with hstep
    obtain ⟨rfl, rfl⟩ := Prod.mk.inj hstep
    refine ⟨?_, rfl, length, rfl, hopen, rfl, ?_, rfl⟩
    · obtain ⟨-, -, hmt, -⟩ := prepare_counters p st
      by_cases htype : pieceType conf st p = .intermediate
      · have hgood : pieceStatus conf st p = StatusCode.good := by
          by_contra hbad
          rw [pieceType_eq_abort.mpr hbad] at htype
          exact nomatch htype
        have hfinal : (p.prepare st).ci.final = false := by
          simpa [pieceType, hgood] using htype
        refine Or.inl ⟨by simp [htype], ⟨?_, ?_, hgood, ?_, ?_, ?_⟩⟩
        · exact hmt.trans hopen.messageType_eq
        · simp [hfinal, hgood]
        · intro c hc
          obtain hc | hc := List.mem_append.mp hc
          · exact hopen.types c hc
          · rw [List.mem_singleton.mp hc, ← htype]
            exact chunkTypeField_pieceChunk conf token hopen length p
        · rw [List.flatten_append, List.length_append, ← hopen.size_eq]
          simp [length_chunkBytes]
        · simp [hopen.count_eq]
      · refine Or.inr ⟨by simp [htype], ⟨?_, ?_⟩⟩
        · by_contra hcontra
          simp only [Bool.not_eq_true, Bool.or_eq_false_iff, decide_eq_false_iff_not, ne_eq,
            not_not] at hcontra
          exact htype (by simp [pieceType, hcontra.1, hcontra.2])
        · refine ⟨st.sent, _, rfl, hopen.types, ?_⟩
          refine (chunkTypeField_pieceChunk conf token hopen length p).trans (congrArg some ?_)
          by_cases hgood : pieceStatus conf st p = StatusCode.good
          · simp only [pieceType, hgood, ne_eq, not_true_eq_false, if_false] at htype ⊢
            rw [if_pos]
            · rfl
            · by_contra hfinal
              exact htype (if_neg hfinal)
          · simp [hgood, pieceType_eq_abort.mpr hgood]
    · simp

theorem nonAbort_of_intermediate {sent : List (List UInt8)}
    (h : ∀ c ∈ sent, chunkTypeField c = some .intermediate) : nonAbort sent = sent := by
  apply List.filter_eq_self.mpr
  intro c hc
  simp [h c hc]

theorem nonAbort_append (sent : List (List UInt8)) (chunk : List UInt8) :
    nonAbort (sent ++ [chunk]) =
      if chunkTypeField chunk = some .abort then nonAbort sent else nonAbort sent ++ [chunk] := by
  rw [nonAbort, List.filter_append, ← nonAbort]
  split
  · next h => simp [h]
  · next h => simp [h]

theorem pos_iff_ne_zero {v : UInt32} : v > 0 ↔ v ≠ 0 := by
  rw [gt_iff_lt, UInt32.lt_iff_toNat_lt, ne_eq, ← UInt32.toNat_inj]
  exact Nat.pos_iff_ne_zero

theorem exceedsLimits_iff (conf : SendConfig) (h : Open contentType st) (p : Piece) :
    exceedsLimits conf st.ci.messageSizeSoFar st.ci.chunksSoFar
        (p.run.length + secureMessageHeaderLength) = true ↔
      TooLong conf st p ∨ (conf.maxChunkCount ≠ 0 ∧
        conf.maxChunkCount.toNat < (st.sent.length + 1) % 65536) := by
  have hcount : ((st.ci.chunksSoFar + 1).toUInt32).toNat = (st.sent.length + 1) % 65536 := by
    rw [h.count_eq, ← UInt16.ofNat_one, ← UInt16.ofNat_add]
    simp
  have hlimit : (st.ci.chunksSoFar + 1).toUInt32 > conf.maxChunkCount ↔
      conf.maxChunkCount.toNat < (st.sent.length + 1) % 65536 := by
    rw [gt_iff_lt, UInt32.lt_iff_toNat_lt, hcount]
  simp only [exceedsLimits, Bool.decide_or, Bool.or_eq_true, decide_eq_true_eq, pos_iff_ne_zero,
    TooLong, h.size_eq, hlimit, gt_iff_lt, and_comm]

theorem withinLimits_append_abort {sent : List (List UInt8)} {chunk : List UInt8}
    (h : chunkTypeField chunk = some .abort) :
    WithinLimits conf (sent ++ [chunk]) ↔ WithinLimits conf sent := by
  have hsame : nonAbort (sent ++ [chunk]) = nonAbort sent := by
    rw [nonAbort_append, if_pos h]
  constructor
  · intro hw
    exact ⟨hsame ▸ hw.count, hsame ▸ hw.size⟩
  · intro hw
    exact ⟨hsame.symm ▸ hw.count, hsame.symm ▸ hw.size⟩

theorem withinLimits_sendPiece {s' : SendState × Option Nat} (h : Sound contentType s)
    (hstep : sendPiece conf token s p = .ok (s', r)) :
    WithinLimits conf s'.1.sent ↔ WithinLimits conf s.1.sent ∧ CountedRight conf s p := by
  obtain ⟨-, -, length, -, hopen, -, -, hsent⟩ := sound_sendPiece h hstep
  have htype := chunkTypeField_pieceChunk conf token hopen length p
  have hlimits := exceedsLimits_iff conf hopen p
  have hkept := nonAbort_of_intermediate hopen.types
  rw [hsent]
  by_cases hbad : pieceStatus conf s.1 p = StatusCode.good
  · -- the chunk counts
    have hexceeds : ¬ (TooLong conf s.1 p ∨ (conf.maxChunkCount ≠ 0 ∧
        conf.maxChunkCount.toNat < (s.1.sent.length + 1) % 65536)) := by
      intro hlong
      rw [pieceStatus, if_pos (hlimits.mpr hlong)] at hbad
      exact absurd hbad (by decide)
    have hgood : (p.prepare s.1).ci.errorCode = StatusCode.good := by
      rwa [pieceStatus, if_neg fun hlong => hexceeds (hlimits.mp hlong)] at hbad
    obtain ⟨hshort, hcount⟩ := not_or.mp hexceeds
    have hall : nonAbort (s.1.sent ++ [pieceChunk conf token s.1 length p]) =
        s.1.sent ++ [pieceChunk conf token s.1 length p] := by
      rw [nonAbort_append, if_neg, hkept]
      rw [htype, Option.some.injEq, pieceType_eq_abort]
      exact fun h => h hbad
    have hlength := length_pieceChunk token length hbad
    constructor
    · intro hw
      obtain ⟨hcountw, hsizew⟩ := hw
      rw [hall, List.length_append, List.length_singleton] at hcountw
      rw [hall, List.flatten_append, List.length_append] at hsizew
      refine ⟨⟨?_, ?_⟩, ?_⟩
      · rw [hkept]
        intro hne
        exact Nat.le_of_succ_le (hcountw hne)
      · rw [hkept]
        intro hne
        exact Nat.le_of_add_right_le (hsizew hne)
      · by_cases hzero : conf.maxChunkCount = 0
        · exact Or.inl (by simp [hzero])
        · exact Or.inr (Or.inl (hcountw hzero))
    · intro hw
      obtain ⟨⟨hcountw, hsizew⟩, hright⟩ := hw
      rw [hkept] at hcountw hsizew
      refine ⟨?_, ?_⟩
      · rw [hall, List.length_append, List.length_singleton]
        intro hne
        have hle := hcountw hne
        obtain hsmall | hless | hcode | hlong := hright
        · -- below 65535 the count does not wrap around
          by_contra hmore
          exact hcount ⟨hne, by omega⟩
        · exact hless
        · exact absurd hgood hcode
        · exact absurd hlong hshort
      · rw [hall, List.flatten_append, List.length_append]
        intro hne
        by_contra hmore
        refine hshort ⟨hne, ?_⟩
        simpa [hlength] using hmore
  · have habort : pieceType conf s.1 p = .abort := pieceType_eq_abort.mpr hbad
    rw [withinLimits_append_abort (htype.trans (congrArg some habort))]
    refine ⟨fun hw => ⟨hw, ?_⟩, And.left⟩
    by_cases hexceeds : exceedsLimits conf s.1.ci.messageSizeSoFar s.1.ci.chunksSoFar
        (p.run.length + secureMessageHeaderLength) = true
    · obtain hlong | hmany := hlimits.mp hexceeds
      · exact Or.inr (Or.inr (Or.inr hlong))
      · exact Or.inl (by omega)
    · rw [pieceStatus, if_neg hexceeds] at hbad
      exact Or.inr (Or.inr (Or.inl hbad))

theorem sound_startOf (conf : SendConfig) (start requestId : UInt32) (contentType : TypeInfo) :
    Sound contentType (startOf conf start requestId contentType) := by
  refine Or.inl ⟨rfl, ⟨rfl, rfl, rfl, ?_, rfl, rfl⟩⟩
  exact fun c hc => nomatch hc

theorem withinLimits_nil (conf : SendConfig) : WithinLimits conf [] :=
  ⟨fun _ => Nat.zero_le _, fun _ => Nat.zero_le _⟩

theorem withinLimits_iff_guarded (conf : SendConfig) (token : SecurityToken)
    (start requestId : UInt32) (contentType : TypeInfo) {calls : List Piece}
    {s : SendState × Option Nat} {replies : List StatusCode}
    (hrun : Runs.run (sendPiece conf token) (startOf conf start requestId contentType) calls =
      .ok (s, replies)) :
    Sound contentType s ∧ (WithinLimits conf s.1.sent ↔
      Runs.Guarded (sendPiece conf token) (CountedRight conf)
        (startOf conf start requestId contentType) calls) := by
  obtain ⟨hsound, hiff⟩ := Runs.good_iff_guarded
    (Sound contentType) (fun s => WithinLimits conf s.1.sent)
    (fun s p s' r h hstep => ⟨(sound_sendPiece h hstep).1, withinLimits_sendPiece h hstep⟩)
    calls _ s replies (sound_startOf conf start requestId contentType) hrun
  refine ⟨hsound, hiff.trans ⟨And.right, fun h => ⟨withinLimits_nil conf, h⟩⟩⟩

theorem run_exchanges {s s' : EncodeState SendState}
    (h : Exchanges (sendChunk conf token) s s') :
    ∃ calls replies, Runs.run (sendPiece conf token) (s.handle, s.encodeBuf) calls =
      .ok ((s'.handle, s'.encodeBuf), replies) := by
  obtain ⟨runs, replies, hrun⟩ := h
  have hsame : ∀ s run, sendPiece conf token s (.exchange run) =
      exchangeStep (sendChunk conf token) s run := fun _ _ => rfl
  exact ⟨runs.map Piece.exchange, replies, (Runs.run_map Piece.exchange hsame _ runs).trans hrun⟩

/-- A message that an exchange leaves without a buffer was aborted. -/
def AbortedIfClosed (contentType : TypeInfo) (s : SendState × Option Nat) : Prop :=
  Sound contentType s ∧ (s.2 = none → s.1.ci.errorCode ≠ StatusCode.good)

theorem abortedIfClosed_of_exchanges {s s' : EncodeState SendState}
    (h : AbortedIfClosed contentType (s.handle, s.encodeBuf))
    (hx : Exchanges (sendChunk conf token) s s') :
    AbortedIfClosed contentType (s'.handle, s'.encodeBuf) := by
  obtain ⟨runs, replies, hrun⟩ := hx
  have hstep : ∀ s run s' r, AbortedIfClosed contentType s → True →
      exchangeStep (sendChunk conf token) s run = .ok (s', r) → AbortedIfClosed contentType s' := by
    intro s run s' r hs _ hstep
    have hpiece : sendPiece conf token s (.exchange run) = .ok (s', r) := hstep
    obtain ⟨hsound, hcode, length, -, hopen, hstatus, hnone, -⟩ := sound_sendPiece hs.1 hpiece
    refine ⟨hsound, fun h => ?_⟩
    rw [← hcode, hstatus]
    intro hgood
    refine hnone.mp h ?_
    simp [pieceType, hgood, Piece.prepare, hopen.not_final]
  exact Runs.invariant_of_guarded hstep runs _ _ replies h (Runs.guarded_true _ _) hrun

theorem sendPiece_of_sendChunk {st' : SendState} {encodeBuf encodeBuf' : Option Nat}
    (h : sendChunk conf token (p.prepare st) p.run encodeBuf = .ok (r, st', encodeBuf')) :
    sendPiece conf token (st, encodeBuf) p = .ok ((st', encodeBuf'), r) := by
  rw [sendPiece, exchangeStep, h]

theorem finishMessage_ok {s : EncodeState SendState} {retval : StatusCode}
    (hs : AbortedIfClosed contentType (s.handle, s.encodeBuf))
    (h : finishMessage conf token r s = .ok (retval, st)) :
    ∃ calls replies, Runs.run (sendPiece conf token) (s.handle, s.encodeBuf) calls =
        .ok ((st, none), replies) ∧
      (retval = StatusCode.good ↔ st.ci.errorCode = StatusCode.good) := by
  obtain ⟨hsound, haborted⟩ := hs
  have hlast : ∀ {p : Piece} {r : StatusCode} {st : SendState} {encodeBuf : Option Nat},
      sendPiece conf token (s.handle, s.encodeBuf) p = .ok ((st, encodeBuf), r) →
      pieceType conf s.handle p ≠ .intermediate →
      Runs.run (sendPiece conf token) (s.handle, s.encodeBuf) [p] = .ok ((st, none), [r]) ∧
        st.ci.errorCode = r ∧ r = pieceStatus conf s.handle p := by
    intro p r st encodeBuf hcall htype
    obtain ⟨-, hcode, length, -, -, hstatus, hnone, -⟩ := sound_sendPiece hsound hcall
    obtain rfl : encodeBuf = none := hnone.mpr htype
    simp only [Runs.run, hcall]
    exact ⟨rfl, hcode.symm, hstatus⟩
  rw [finishMessage] at h
  by_cases hbad : r ≠ StatusCode.good
  · rw [if_pos hbad] at h
    by_cases hfinal : s.handle.ci.final = true
    · rw [if_pos hfinal] at h
      injection h with h
      obtain ⟨rfl, rfl⟩ := Prod.mk.inj h
      obtain ⟨-, hopen⟩ | ⟨hnone, -⟩ := hsound
      · have hopenFinal : s.handle.ci.final = false := hopen.not_final
        rw [hopenFinal] at hfinal
        cases hfinal
      · refine ⟨[], [], ?_, ?_⟩
        · rw [Runs.run, show s.encodeBuf = none from hnone]
        · exact ⟨fun h => absurd h hbad, fun h => absurd h (haborted hnone)⟩
    · rw [if_neg hfinal] at h
      split at h
      · next status st' encodeBuf' hcall =>
        injection h with h
        obtain ⟨rfl, rfl⟩ := Prod.mk.inj h
        have hpiece := sendPiece_of_sendChunk (p := .abort s.pos.before r) hcall
        have hstatus : pieceStatus conf s.handle (.abort s.pos.before r) ≠ StatusCode.good := by
          unfold pieceStatus
          split
          · decide
          · exact hbad
        have htype := pieceType_eq_abort.mpr hstatus
        obtain ⟨hrun, hcode, hsame⟩ := hlast hpiece (by rw [htype]; decide)
        refine ⟨_, _, hrun, ?_⟩
        rw [hcode, hsame]
        exact ⟨fun h => absurd h hbad, fun h => absurd h hstatus⟩
      · cases h
  · rw [if_neg hbad] at h
    split at h
    · next status st' encodeBuf' hcall =>
      injection h with h
      obtain ⟨rfl, rfl⟩ := Prod.mk.inj h
      have hpiece := sendPiece_of_sendChunk (p := .last s.pos.before) hcall
      have htype : pieceType conf s.handle (.last s.pos.before) ≠ .intermediate := by
        unfold pieceType
        split
        · decide
        · rw [if_pos (show ((Piece.last s.pos.before).prepare s.handle).ci.final = true from rfl)]
          decide
      obtain ⟨hrun, hcode, hsame⟩ := hlast hpiece htype
      exact ⟨_, _, hrun, by rw [hcode]⟩
    · cases h

/-- A message that was sent is the run of its calls, and keeps within the limits of the peer
exactly if they all count right. -/
theorem sendBinaryMessage_respects (fuel : Nat) (conf : SendConfig) (token : SecurityToken)
    (start requestId : UInt32) (content : Value) (contentType : TypeInfo) (retval : StatusCode)
    (st : SendState) (h : sendBinaryMessage fuel conf token start requestId content contentType =
      .ok (retval, st)) :
    ∃ calls replies, Runs.run (sendPiece conf token) (startOf conf start requestId contentType)
        calls = .ok ((st, none), replies) ∧
      (RespectsLimits conf retval st.sent ↔
        Runs.Guarded (sendPiece conf token) (CountedRight conf)
          (startOf conf start requestId contentType) calls) := by
  rw [sendBinaryMessage] at h
  split at h
  · next r s hencode =>
    rw [encodeBinary, ← run_membersScript] at hencode
    have hx := exchanges_of_run _ hencode
    have hstart : AbortedIfClosed contentType (startOf conf start requestId contentType) :=
      ⟨sound_startOf conf start requestId contentType, fun h => by cases h⟩
    have hs := abortedIfClosed_of_exchanges hstart hx
    obtain ⟨calls, replies, hrun⟩ := run_exchanges hx
    obtain ⟨calls', replies', hrun', hretval⟩ := finishMessage_ok hs h
    have hall := Runs.run_append hrun hrun'
    obtain ⟨hsound, hiff⟩ := withinLimits_iff_guarded conf token start requestId contentType hall
    refine ⟨_, _, hall, ?_⟩
    rw [← hiff]
    constructor
    · exact RespectsLimits.within
    · intro hwithin
      obtain ⟨hsome, -⟩ | ⟨-, hclosed⟩ := hsound
      · cases hsome
      · refine ⟨hwithin, ?_⟩
        simp only [hretval]
        exact hclosed.ended
  · cases h

/-- Six numbers are sent in four chunks, as many as the peer takes. -/
theorem sendBinaryMessage_respects_numbers :
    ∃ st, sendBinaryMessage 8 ⟨32, 200, 4⟩ ⟨1, 1⟩ 50 7 sixNumbers sampleType =
        .ok (StatusCode.good, st) ∧ st.sent.length = 4 ∧
      ∃ calls replies,
        Runs.run (sendPiece ⟨32, 200, 4⟩ ⟨1, 1⟩) (startOf ⟨32, 200, 4⟩ 50 7 sampleType)
          calls = .ok ((st, none), replies) ∧
        (RespectsLimits ⟨32, 200, 4⟩ StatusCode.good st.sent ↔
          Runs.Guarded (sendPiece ⟨32, 200, 4⟩ ⟨1, 1⟩) (CountedRight ⟨32, 200, 4⟩)
            (startOf ⟨32, 200, 4⟩ 50 7 sampleType) calls) := by
  obtain ⟨st, hsent, hlength⟩ := sendBinaryMessage_sixNumbers ⟨32, 200, 4⟩ (.inr rfl)
  exact ⟨st, hsent, hlength, sendBinaryMessage_respects 8 ⟨32, 200, 4⟩ ⟨1, 1⟩ 50 7 sixNumbers
    sampleType StatusCode.good st hsent⟩

/-- Payloads of 8 bytes, and the smallest chunk limit that is never enforced. -/
def manyChunks : SendConfig := ⟨32, 0, 65535⟩

theorem manyChunks_unlimited (messageSizeSoFar offset : Nat) (chunksSoFar : UInt16) :
    exceedsLimits manyChunks messageSizeSoFar chunksSoFar offset = false := by
  have hcount : decide ((chunksSoFar + 1).toUInt32 > manyChunks.maxChunkCount ∧
      manyChunks.maxChunkCount > 0) = false := by
    apply decide_eq_false
    intro hmany
    have hlt := (chunksSoFar + 1).toNat_lt
    have hmore := UInt32.lt_iff_toNat_lt.mp hmany.1
    rw [UInt16.toNat_toUInt32, show manyChunks.maxChunkCount.toNat = 65535 from rfl] at hmore
    omega
  rw [exceedsLimits, Bool.decide_or, hcount]
  simp [manyChunks]

/-- A string of `8 * (k + 1)` bytes. -/
def longString (k : Nat) : UaString := .mem (List.replicate (8 * (k + 1)) 97)

theorem script_longString {k : Nat} (hk : 8 * (k + 1) ≤ int32Max) :
    script (.string (longString k)) = .andThen (uint32Script (UInt32.ofNat (8 * (k + 1))))
      (.copy 1 (List.replicate (8 * (k + 1)) 97)) := by
  have hlength : (longString k).length = 8 * (k + 1) := by
    simp [longString, CArray.length]
  rw [script, stringScript, if_pos (by rw [hlength]; omega), hlength, arrayScript,
    if_neg (by omega)]
  rfl

theorem laysOut_replicate (k : Nat) {u : Usage} (hfill : u.fill = 0) :
    ∃ t, LaysOut (payloadSupply manyChunks) (.copy 1 (List.replicate (8 * (k + 1)) 97)) u
      (.fits t) ∧ t.messageSizeSoFar = u.messageSizeSoFar + 32 * k := by
  have hroom : (payloadSupply manyChunks).room u = 8 := by
    show 8 - u.fill = 8
    rw [hfill]
  induction k generalizing u with
  | zero =>
    exact ⟨_, .copy (by rw [hroom]; simp), rfl⟩
  | succ k ih =>
    have hnext : (payloadSupply manyChunks).next
        ((payloadSupply manyChunks).write u ((payloadSupply manyChunks).room u / 1 * 1)) =
          some ⟨u.serial + 1, 0, u.messageSizeSoFar + 32, u.chunksSoFar + 1⟩ := by
      rw [hroom]
      simp [payloadSupply, manyChunks_unlimited, hfill, secureMessageHeaderLength]
    obtain ⟨t, hlays, hsize⟩ :=
      ih (u := ⟨u.serial + 1, 0, u.messageSizeSoFar + 32, u.chunksSoFar + 1⟩) rfl rfl
    refine ⟨t, .copyNext (by rw [hroom]; simp) hnext ?_, ?_⟩
    · rw [hroom, List.drop_replicate]
      exact hlays
    · rw [hsize]
      show u.messageSizeSoFar + 32 + 32 * k = _
      omega

theorem laysOut_longString (k : Nat) (hk : 8 * (k + 1) ≤ int32Max) :
    ∃ t, LaysOut (payloadSupply manyChunks)
        (membersScript (.scalar (.string (longString k)) .nil)) (initialUsage sampleType)
          (.fits t) ∧
      t.messageSizeSoFar = 32 * (k + 1) := by
  obtain ⟨t, hlays, hsize⟩ := laysOut_replicate k (u := ⟨1, 0, 32, 1⟩) rfl
  have hroom : (payloadSupply manyChunks).room ⟨0, 8, 0, 0⟩ = 0 := rfl
  have hfull : LaysOut (payloadSupply manyChunks) (.copy 1 (List.replicate (8 * (k + 1)) 97))
      ⟨0, 8, 0, 0⟩ (.fits t) := by
    have hnext : (payloadSupply manyChunks).next ((payloadSupply manyChunks).write ⟨0, 8, 0, 0⟩
        ((payloadSupply manyChunks).room ⟨0, 8, 0, 0⟩ / 1 * 1)) = some ⟨1, 0, 32, 1⟩ := by
      simp only [payloadSupply, manyChunks_unlimited]
      rfl
    refine .copyNext ?_ hnext ?_
    · rw [hroom, List.length_replicate]
      omega
    · rw [hroom]
      exact hlays
  have hwritten : (payloadSupply manyChunks).write (initialUsage sampleType) 4 = ⟨0, 8, 0, 0⟩ := rfl
  have hlength : (LittleEndian.toBytes 4 (UInt32.ofNat (8 * (k + 1))).toNat).length = 4 :=
    LittleEndian.length_toBytes _ _
  refine ⟨t, ?_, by rw [hsize]; show 32 + 32 * k = _; omega⟩
  rw [membersScript, membersScript, script_longString hk]
  refine .andThen (.retry (.andThen (.write ?_) ?_)) .done
  · rw [hlength]
    decide
  · rw [hlength, hwritten]
    exact hfull

theorem length_flatten_le {n : Nat} {cs : List (List UInt8)} (h : ∀ c ∈ cs, c.length ≤ n) :
    cs.flatten.length ≤ n * cs.length := by
  induction cs with
  | nil => exact Nat.zero_le _
  | cons c cs ih =>
    have hc := h c List.mem_cons_self
    have hcs := ih fun c' hc' => h c' (List.mem_cons_of_mem _ hc')
    rw [List.flatten_cons, List.length_append, List.length_cons, Nat.mul_succ]
    omega

/-- A string of 524280 bytes is sent in 65536 chunks that are not aborted. -/
theorem longString_exceeds : ∃ fuel retval st,
    sendBinaryMessage fuel manyChunks ⟨1, 1⟩ 50 7
        (.structure (.scalar (.string (longString 65534)) .nil)) sampleType = .ok (retval, st) ∧
      ¬ RespectsLimits manyChunks retval st.sent := by
  have hfree : (membersScript (.scalar (.string (longString 65534)) .nil)).FailFree := by
    rw [membersScript, membersScript, script_longString (by decide)]
    exact ⟨⟨trivial, trivial⟩, trivial⟩
  obtain ⟨t, hlays, hsize⟩ := laysOut_longString 65534 (by decide)
  have hf : Follows (sendChunk manyChunks ⟨1, 1⟩) (payloadSupply manyChunks) usage
      (Sending manyChunks 50 7 sampleType) (Aborted manyChunks 50) :=
    sendChunk_follows ⟨1, 1⟩ (by decide)
  obtain ⟨hlive, husage⟩ : Sending manyChunks 50 7 sampleType
      (messageStart manyChunks 50 7 sampleType) ∧ _ :=
        sending_messageStart 50 7 sampleType (by decide)
  obtain ⟨bound, hbound⟩ :=
    (run_of_lays hf hlays hfree (tame_membersScript _)).exists_bound
  obtain ⟨r, s', hrun, rfl, hsending, rfl, -⟩ := hbound bound (Nat.le_refl bound) _ hlive husage
  have hstart : AbortedIfClosed sampleType (startOf manyChunks 50 7 sampleType) :=
    ⟨sound_startOf manyChunks 50 7 sampleType, fun h => by cases h⟩
  obtain ⟨hsound, -⟩ := abortedIfClosed_of_exchanges hstart (exchanges_of_run _ hrun)
  have hopen : Open sampleType s'.handle := by
    obtain ⟨-, hopen⟩ | ⟨hnone, -⟩ := hsound
    · exact hopen
    · rw [hsending.encodeBuf_eq] at hnone
      cases hnone
  -- every chunk has at most 32 bytes, so there are at least 65535 of them
  have hmany : 65535 ≤ s'.handle.sent.length := by
    have hle : s'.handle.sent.flatten.length ≤ 32 * s'.handle.sent.length :=
      length_flatten_le fun c hc => (hsending.continuing.sizes c hc).le_buffer
    have htotal : s'.handle.ci.messageSizeSoFar = 32 * (65534 + 1) := hsize
    rw [← hopen.size_eq, htotal] at hle
    omega
  have hstatus : pieceStatus manyChunks s'.handle (.last s'.pos.before) = StatusCode.good := by
    rw [pieceStatus, manyChunks_unlimited]
    exact hopen.good
  have htype : pieceType manyChunks s'.handle (.last s'.pos.before) = .final := by
    rw [pieceType, if_neg (fun h => h hstatus)]
    rfl
  let chunk := pieceChunk manyChunks ⟨1, 1⟩ s'.handle (payloadSize manyChunks) (.last s'.pos.before)
  have hlast : ∃ st, finishMessage manyChunks ⟨1, 1⟩ StatusCode.good s' =
    .ok (StatusCode.good, st) ∧
      st.sent = s'.handle.sent ++ [chunk] := by
    have hpiece := sendPiece_some manyChunks ⟨1, 1⟩ s'.handle
      (payloadSize manyChunks) (.last s'.pos.before)
    rw [hstatus, sendPiece, exchangeStep] at hpiece
    split at hpiece
    · next retval handle encodeBuf hcall =>
      injection hpiece with hpiece
      obtain ⟨hstate, rfl⟩ := Prod.mk.inj hpiece
      have hprepared : sendChunk manyChunks ⟨1, 1⟩ { s'.handle with ci.final := true }
          s'.pos.before (some (payloadSize manyChunks)) =
            .ok (StatusCode.good, handle, encodeBuf) := hcall
      refine ⟨handle, ?_, ?_⟩
      · rw [finishMessage, if_neg (by decide), hsending.encodeBuf_eq, hprepared]
      · rw [(Prod.mk.inj hstate).1]
        rfl
    · cases hpiece
  obtain ⟨st, hfinish, hsent⟩ := hlast
  refine ⟨bound, StatusCode.good, st, ?_, ?_⟩
  · rw [run_membersScript] at hrun
    have hencode : encodeBinary bound (some (sendChunk manyChunks ⟨1, 1⟩))
        (.structure (.scalar (.string (longString 65534)) .nil))
        { ci := initialChunkInfo 7 sampleType, sendSequenceNumber := 50, sent := [] }
        (payloadSize manyChunks) (encodeTypeId sampleType (payloadSize manyChunks)) =
          .ok (StatusCode.good, s') := hrun
    rw [sendBinaryMessage, ← payloadSize, hencode]
    exact hfinish
  · intro h
    have hcount := h.within.count (by decide)
    have hfinal : chunkTypeField chunk = some .final := by
      rw [← htype]
      exact chunkTypeField_pieceChunk manyChunks ⟨1, 1⟩ hopen _ _
    rw [hsent, nonAbort_append, if_neg (by rw [hfinal]; decide),
      nonAbort_of_intermediate hopen.types, List.length_append, List.length_singleton,
      show manyChunks.maxChunkCount.toNat = 65535 from rfl] at hcount
    omega

end FactoryThing.SecureChannel
