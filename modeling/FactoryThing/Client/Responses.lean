import FactoryThing.Client.Service
import FactoryThing.Lib.Runs

/-!
# Responses and requests

A client that waits for the response to a request takes any message for it: `processServiceResponse`
ends the wait before it looks at the request id, and a message with another id leaves its mark on
the response. The wait is a machine that takes one receive buffer after the other; the response is
the one of the request as long as the last message of each buffer is for the request
(`BufferGuard`).
-/

namespace FactoryThing.Client

open Encoding SecureChannel Stateful

variable {env : DecodeEnv}

/-- The messages in one receive buffer, and whether taking it apart comes to an end, with the
program alive. -/
structure Delivery where
  callbacks : List Callback
  ended : Bool
  deriving DecidableEq

def recorder : Application (Channel × List Callback) where
  channel s := s.1
  setChannel s channel := (channel, s.2)
  callback s callback := (s.1, s.2 ++ [callback])

/-- The loop over chunks has returned. -/
def returned : Option LoopEnd → Bool
  | some (.status _) => true
  | _ => false

/-- The channel after a buffer, and the messages in it. -/
def deliver (channel : Channel) (reply : List UInt8) : Channel × Delivery :=
  let ((channel, callbacks), status) := runChunks recorder reply (reply.length + 1) (channel, []) 0
  (channel, ⟨callbacks, returned status⟩)

/-- All buffers that are received until the deadline, and the status that the last attempt to
receive one returns. -/
def messagesReceived (connection : Transport.Connection) (channel : Channel) :
    List Received → List Delivery × StatusCode
  | [] => ([], StatusCode.goodNonCriticalTimeout)
  | received :: later =>
    let result := Transport.completeMessages connection received.packet false
    let retval := received.status ||| result.status
    if retval ≠ StatusCode.good then ([], retval)
    else if result.message.length > 0 then
      let (channel, delivery) := deliver channel result.message
      let (deliveries, ending) := messagesReceived result.connection channel later
      (delivery :: deliveries, ending)
    else messagesReceived result.connection channel later

/-- The wait loop on the messages of the buffers. -/
def waitFor (env : DecodeEnv) (ending : StatusCode) : ResponseDescription → List Delivery →
    Option Value
  | rd, [] => some (setServiceResult ending rd.response)
  | rd, d :: ds =>
    let rd := d.callbacks.foldl (processServiceResponse env) rd
    if d.ended = false then none
    else if rd.processed then some rd.response
    else waitFor env ending rd ds

theorem runChunks_response (env : DecodeEnv) (s : Waiting) (reply : List UInt8) :
    runChunks (responseApplication env) reply (reply.length + 1) s 0 =
      ({ s with
          channel := (deliver s.channel reply).1
          rd := (deliver s.channel reply).2.callbacks.foldl (processServiceResponse env) s.rd },
        (runChunks recorder reply (reply.length + 1) (s.channel, []) 0).2) := by
  let f : Channel × List Callback → Waiting := fun t =>
    ⟨s.connection, t.1, t.2.foldl (processServiceResponse env) s.rd⟩
  have hstart : f (s.channel, []) = s := rfl
  rw [← hstart]
  refine runChunks_map f (fun _ => rfl) (fun _ _ => rfl) (fun t callback => ?_) reply _ _ 0
  have hfold : processServiceResponse env (t.2.foldl (processServiceResponse env) s.rd) callback =
      (t.2 ++ [callback]).foldl (processServiceResponse env) s.rd := by
    rw [List.foldl_append]
    rfl
  exact congrArg (Waiting.mk s.connection t.1) hfold

theorem messagesReceived_eq (connection : Transport.Connection) (channel : Channel)
    (received : List Received) :
    messagesReceived connection channel received =
      match receiveChunksBlocking connection received with
      | (_, .error retval, _) => ([], retval)
      | (connection, .ok reply, later) =>
        let rest := messagesReceived connection (deliver channel reply).1 later
        ((deliver channel reply).2 :: rest.1, rest.2) := by
  induction received generalizing connection with
  | nil => rfl
  | cons first later ih =>
    rw [messagesReceived, receiveChunksBlocking]
    split
    · rfl
    · split
      · rfl
      · exact ih _

theorem length_of_receiveChunks {connection connection' : Transport.Connection}
    {received later : List Received} {reply : List UInt8}
    (h : receiveChunksBlocking connection received = (connection', .ok reply, later)) :
    later.length < received.length := by
  induction received generalizing connection with
  | nil => cases h
  | cons first rest ih =>
    rw [receiveChunksBlocking] at h
    split at h
    · cases h
    · split at h
      · cases h
        exact Nat.lt_succ_self _
      · exact Nat.lt_succ_of_lt (ih h)

theorem retrieveResponse_eq (env : DecodeEnv) {fuel : Nat} {s : Waiting} {received : List Received}
    (hfuel : received.length < fuel) :
    (retrieveResponse env fuel s received).map (fun s' => s'.rd.response) =
      waitFor env (messagesReceived s.connection s.channel received).2 s.rd
        (messagesReceived s.connection s.channel received).1 := by
  induction fuel generalizing s received with
  | zero => exact absurd hfuel (Nat.not_lt_zero _)
  | succ fuel ih =>
    rw [retrieveResponse, messagesReceived_eq]
    rcases hreceive : receiveChunksBlocking s.connection received with
      ⟨connection, retval | reply, later⟩
    · rfl
    · have hlater := length_of_receiveChunks hreceive
      dsimp only
      rw [runChunks_response, waitFor]
      have hended : (deliver s.channel reply).2.ended =
          returned (runChunks recorder reply (reply.length + 1) (s.channel, []) 0).2 := rfl
      rw [hended]
      rcases (runChunks recorder reply (reply.length + 1) (s.channel, []) 0).2 with
        _ | status | _
      · rfl
      · simp only [returned, Bool.true_eq_false, if_false]
        split
        · rfl
        · exact ih (Nat.lt_of_lt_of_le hlater (Nat.lt_succ_iff.mp hfuel))
      · rfl

/-! ## Messages for a request -/

section Answers

variable {requestId : UInt32} {responseType : ResponseType}

/-- A message that carries a value with the given id of its encoding. -/
def Carries (env : DecodeEnv) (message : List UInt8) (binaryEncodingId : UInt16) : Prop :=
  (decodeAt env message 0 (.builtin .nodeId)).status = StatusCode.good ∧
    isTypeId (decodeAt env message 0 (.builtin .nodeId)).dst binaryEncodingId = true

/-- The value that a response of the expected type carries; one that cannot be decoded is all zero
but for the status. -/
def carried (env : DecodeEnv) (responseType : ResponseType) (message : List UInt8) : Value :=
  let decoded := decodeAt env message (decodeAt env message 0 (.builtin .nodeId)).offset
    responseType.type
  (finishResponse decoded.status ⟨true, 0, decoded.dst, responseType⟩).response

def IsForeign (requestId : UInt32) : Callback → Prop
  | .error _ _ => False
  | .message _ requestId' _ => requestId' ≠ requestId

instance (requestId : UInt32) : DecidablePred (IsForeign requestId) := fun callback =>
  match callback with
  | .error _ _ => isFalse id
  | .message _ requestId' _ => inferInstanceAs (Decidable (requestId' ≠ requestId))

/-- The buffers without messages for other requests. -/
def ownMessages (requestId : UInt32) (deliveries : List Delivery) : List Delivery :=
  deliveries.map fun d =>
    { d with callbacks := d.callbacks.filter fun callback => ¬ IsForeign requestId callback }

/-- A response to the request, with the value that it carries. -/
def IsResponse (env : DecodeEnv) (requestId : UInt32) (responseType : ResponseType)
    (callback : Callback) (response : Value) : Prop :=
  ∃ message, callback = .message messageTypeMsg requestId message ∧
    Carries env message responseType.info.binaryEncodingId ∧
    response = carried env responseType message

/-- An ERR message with the status Good, which changes nothing in the response. -/
def IsSilent : Callback → Prop
  | .error code _ => code = StatusCode.good
  | .message _ _ _ => False

instance : DecidablePred IsSilent := fun callback =>
  match callback with
  | .error code _ => inferInstanceAs (Decidable (code = StatusCode.good))
  | .message _ _ _ => isFalse id

theorem dst_serviceFault (env : DecodeEnv) (src : List UInt8) (offset : Nat) :
    ∃ header, (decodeAt env src offset serviceFaultType).dst =
      .structure (.scalar header .nil) := by
  unfold decodeAt
  split
  · rename_i result s hdecode
    unfold decodeBinary at hdecode
    cases hrun : (decodeBinaryJumpTable env (src.length + 1) serviceFaultType).run
        (decodeStart src offset) with
    | error fault =>
      rw [hrun] at hdecode
      cases hdecode
    | ok r =>
      obtain ⟨⟨retval, dst⟩, s'⟩ := r
      rw [hrun] at hdecode
      by_cases hgood : retval = StatusCode.good
      · have hresult : (Except.ok (⟨retval, s'.pos, dst⟩, s') : Except Fault _) =
            .ok (result, s) := by
          rw [← hdecode]
          exact (if_pos hgood).symm
        obtain ⟨rfl, rfl⟩ := Prod.mk.inj (Except.ok.inj hresult)
        -- the entry for the structure, its one member, and nothing behind it
        obtain ⟨⟨status, members⟩, s1, hmembers, hdst⟩ := run_bind_ok.mp hrun
        obtain ⟨⟨status', header, rest⟩, s2, hboth, hpair⟩ := run_bind_ok.mp hmembers
        obtain ⟨⟨r1, header'⟩, s3, -, hrest⟩ := run_bind_ok.mp hboth
        obtain ⟨⟨r2, rest'⟩, s4, hnil, hlast⟩ := run_bind_ok.mp hrest
        obtain ⟨hdst, -⟩ := run_pure_ok.mp hdst
        obtain ⟨hpair, -⟩ := run_pure_ok.mp hpair
        obtain ⟨hlast, -⟩ := run_pure_ok.mp hlast
        obtain ⟨hnil, -⟩ := run_pure_ok.mp hnil
        simp only [Prod.mk.injEq] at hdst hpair hlast hnil
        refine ⟨header, ?_⟩
        rw [hdst.2, hpair.2, hlast.2.2, hnil.2]
      · have hresult : (Except.ok (⟨retval, offset, zeroValue serviceFaultType⟩, s') :
            Except Fault _) = .ok (result, s) := by
          rw [← hdecode]
          exact (if_neg hgood).symm
        obtain ⟨rfl, rfl⟩ := Prod.mk.inj (Except.ok.inj hresult)
        exact ⟨_, rfl⟩
  · exact ⟨_, rfl⟩

/-- Two waits for the same response, which is the same but for the status in its header. -/
structure SameBody (rd rd' : ResponseDescription) : Prop where
  requestId : rd.requestId = rd'.requestId
  responseType : rd.responseType = rd'.responseType
  status : ∀ retval, setServiceResult retval rd.response = setServiceResult retval rd'.response
  body : ∀ header, setHeader (.structure (.scalar header .nil)) rd.response =
    setHeader (.structure (.scalar header .nil)) rd'.response

theorem setServiceResult_twice (retval retval' : StatusCode) (response : Value) :
    setServiceResult retval (setServiceResult retval' response) =
      setServiceResult retval response := by
  -- without a header nothing is written, either time
  have hkept : ∀ value, setServiceResult retval' value = value ∨
      setServiceResult retval (setServiceResult retval' value) = setServiceResult retval value := by
    intro value
    unfold setServiceResult
    split
    · exact .inr rfl
    · exact .inl rfl
  rcases hkept response with h | h
  · rw [h]
  · exact h

theorem sameBody_finishResponse (retval : StatusCode) (rd : ResponseDescription) :
    SameBody (finishResponse retval rd) rd := by
  unfold finishResponse
  split
  · exact ⟨rfl, rfl, fun _ => rfl, fun _ => rfl⟩
  · refine ⟨rfl, rfl, fun _ => setServiceResult_twice _ _ _, fun header => ?_⟩
    dsimp only
    unfold setServiceResult
    split
    · rename_i hresponse
      rw [hresponse]
      rfl
    · rfl

variable {rd rd' : ResponseDescription}

theorem SameBody.symm (h : SameBody rd rd') : SameBody rd' rd :=
  ⟨h.requestId.symm, h.responseType.symm, fun retval => (h.status retval).symm,
    fun header => (h.body header).symm⟩

theorem SameBody.trans {rd'' : ResponseDescription} (h : SameBody rd rd') (h' : SameBody rd' rd'') :
    SameBody rd rd'' :=
  ⟨h.requestId.trans h'.requestId, h.responseType.trans h'.responseType,
    fun retval => (h.status retval).trans (h'.status retval),
    fun header => (h.body header).trans (h'.body header)⟩

theorem SameBody.finishResponse (h : SameBody rd rd') (retval : StatusCode) :
    SameBody (finishResponse retval rd) (finishResponse retval rd') :=
  ((sameBody_finishResponse retval rd).trans h).trans (sameBody_finishResponse retval rd').symm

theorem sameBody_of_foreign {callback : Callback} (h : IsForeign rd.requestId callback) :
    SameBody (processServiceResponse env rd callback) rd := by
  cases callback with
  | error code reason => exact h.elim
  | message messageType requestId' message =>
    have hmarked : SameBody { rd with processed := true } rd :=
      ⟨rfl, rfl, fun _ => rfl, fun _ => rfl⟩
    unfold processServiceResponse
    dsimp only
    split
    · exact (sameBody_finishResponse _ _).trans hmarked
    · rw [if_pos (show requestId' ≠ rd.requestId from h)]
      exact (sameBody_finishResponse _ _).trans hmarked

theorem SameBody.process (h : SameBody rd rd') (callback : Callback) :
    SameBody (processServiceResponse env rd callback)
      (processServiceResponse env rd' callback) := by
  obtain ⟨processed, request, response, type⟩ := rd
  obtain ⟨processed', request', response', type'⟩ := rd'
  obtain ⟨rfl, rfl, hstatus, hbody⟩ := h
  have hmarked : ∀ p p', SameBody ⟨p, request, response, type⟩ ⟨p', request, response', type⟩ :=
    fun _ _ => ⟨rfl, rfl, hstatus, hbody⟩
  cases callback with
  | error code reason => exact (hmarked true true).finishResponse code
  | message messageType requestId message =>
    unfold processServiceResponse
    dsimp only
    split
    · exact (hmarked true true).finishResponse _
    split
    · exact (hmarked true true).finishResponse _
    split
    · exact (hmarked true true).finishResponse _
    split
    · exact SameBody.finishResponse ⟨rfl, rfl, fun _ => rfl, fun _ => rfl⟩ _
    split
    · obtain ⟨header, hheader⟩ := dst_serviceFault { env with customTypes := [] } message
        (decodeAt env message 0 (.builtin .nodeId)).offset
      rw [hheader, hbody header]
      exact SameBody.finishResponse ⟨rfl, rfl, fun _ => rfl, fun _ => rfl⟩ _
    · exact (hmarked true true).finishResponse _

theorem response_finishResponse (h : rd.response = rd'.response) (retval : StatusCode) :
    (finishResponse retval rd).response = (finishResponse retval rd').response := by
  unfold finishResponse
  split
  · exact h
  · rw [h]

theorem process_own {message : List UInt8}
    (hstatus : (decodeAt env message 0 (.builtin .nodeId)).status = StatusCode.good) :
    processServiceResponse env rd (.message messageTypeMsg rd.requestId message) =
      let rd := { rd with processed := true }
      let responseId := decodeAt env message 0 (.builtin .nodeId)
      if isTypeId responseId.dst rd.responseType.info.binaryEncodingId then
        let decoded := decodeAt env message responseId.offset rd.responseType.type
        finishResponse decoded.status { rd with response := decoded.dst }
      else if isTypeId responseId.dst serviceFaultType.info.binaryEncodingId then
        let fault :=
          decodeAt { env with customTypes := [] } message responseId.offset serviceFaultType
        finishResponse fault.status { rd with response := setHeader fault.dst rd.response }
      else finishResponse StatusCode.badInternalError rd := by
  unfold processServiceResponse
  dsimp only
  rw [if_neg (not_not.mpr rfl), if_neg (not_not.mpr rfl), if_neg (not_not.mpr hstatus)]

theorem response_of_carries {message : List UInt8} (hid : rd.requestId = requestId)
    (htype : rd.responseType = responseType)
    (h : Carries env message responseType.info.binaryEncodingId) :
    (processServiceResponse env rd (.message messageTypeMsg requestId message)).response =
      carried env responseType message := by
  subst hid htype
  rw [process_own h.1]
  rw [if_pos h.2]
  apply response_finishResponse
  rfl

theorem response_of_bad (h : SameBody rd rd') {retval : StatusCode}
    (hbad : retval ≠ StatusCode.good) :
    (finishResponse retval rd).response = (finishResponse retval rd').response := by
  unfold finishResponse
  rw [if_neg hbad, if_neg hbad]
  exact h.status _

/-- A message for the request that is not silent makes the response the same, whatever status is in
it. -/
theorem response_of_own (h : SameBody rd rd') {callback : Callback}
    (hown : ¬ IsForeign rd.requestId callback) (hloud : ¬ IsSilent callback) :
    (processServiceResponse env rd callback).response =
      (processServiceResponse env rd' callback).response := by
  obtain ⟨processed, request, response, type⟩ := rd
  obtain ⟨processed', request', response', type'⟩ := rd'
  obtain ⟨rfl, rfl, hstatus, hbody⟩ := h
  have hmarked : SameBody ⟨true, request, response, type⟩ ⟨true, request, response', type⟩ :=
    ⟨rfl, rfl, hstatus, hbody⟩
  cases callback with
  | error code reason => exact response_of_bad hmarked hloud
  | message messageType requestId message =>
    obtain rfl : requestId = request := not_not.mp hown
    unfold processServiceResponse
    dsimp only
    split
    · exact response_of_bad hmarked (by decide)
    rw [if_neg (not_not.mpr rfl), if_neg (not_not.mpr rfl)]
    split
    · rename_i hbad
      exact response_of_bad hmarked hbad
    split
    · exact response_finishResponse rfl _
    split
    · obtain ⟨header, hheader⟩ := dst_serviceFault { env with customTypes := [] } message
        (decodeAt env message 0 (.builtin .nodeId)).offset
      apply response_finishResponse
      rw [hheader, hbody header]
    · exact response_of_bad hmarked (by decide)

theorem sameRequest_process (rd : ResponseDescription) (callback : Callback) :
    (processServiceResponse env rd callback).requestId = rd.requestId ∧
      (processServiceResponse env rd callback).responseType = rd.responseType ∧
      (processServiceResponse env rd callback).processed = true := by
  have hfinish : ∀ retval (rd' : ResponseDescription),
      (finishResponse retval rd').requestId = rd'.requestId ∧
        (finishResponse retval rd').responseType = rd'.responseType ∧
        (finishResponse retval rd').processed = rd'.processed := by
    intro retval rd'
    unfold finishResponse
    split
    · exact ⟨rfl, rfl, rfl⟩
    · exact ⟨rfl, rfl, rfl⟩
  cases callback with
  | error code reason => exact hfinish _ _
  | message messageType requestId message =>
    unfold processServiceResponse
    dsimp only
    split
    · exact hfinish _ _
    split
    · exact hfinish _ _
    split
    · exact hfinish _ _
    split
    · exact hfinish _ _
    split
    · exact hfinish _ _
    · exact hfinish _ _

theorem sameRequest_foldl (rd : ResponseDescription) (callbacks : List Callback) :
    (callbacks.foldl (processServiceResponse env) rd).requestId = rd.requestId ∧
      (callbacks.foldl (processServiceResponse env) rd).responseType = rd.responseType := by
  induction callbacks generalizing rd with
  | nil => exact ⟨rfl, rfl⟩
  | cons callback callbacks ih =>
    obtain ⟨hid, htype, -⟩ := @sameRequest_process env rd callback
    exact ⟨(ih _).1.trans hid, (ih _).2.trans htype⟩

theorem sameBody_own (h : SameBody rd rd') (callbacks : List Callback) :
    SameBody (callbacks.foldl (processServiceResponse env) rd)
      ((callbacks.filter fun callback => ¬ IsForeign rd.requestId callback).foldl
        (processServiceResponse env) rd') := by
  induction callbacks generalizing rd rd' with
  | nil => exact h
  | cons callback callbacks ih =>
    have hid := (@sameRequest_process env rd callback).1
    rw [List.foldl_cons, List.filter_cons]
    by_cases hforeign : IsForeign rd.requestId callback
    · rw [if_neg (by simpa using hforeign)]
      have hrest := ih ((@sameBody_of_foreign env _ _ hforeign).trans h)
      rwa [hid] at hrest
    · rw [if_pos (by simpa using hforeign), List.foldl_cons]
      have hrest := ih (@SameBody.process env _ _ h callback)
      rwa [hid] at hrest

end Answers

/-- A call returns the response to its request, when it comes in time, and messages with other ids
change nothing. -/
structure PairsResponse (env : DecodeEnv) (requestId : UInt32) (responseType : ResponseType)
    (deliveries : List Delivery) (ending : StatusCode) (response : Value) : Prop where
  response_eq : ∀ d ∈ deliveries, ∀ message,
    .message messageTypeMsg requestId message ∈ d.callbacks →
    Carries env message responseType.info.binaryEncodingId →
    response = carried env responseType message
  unaffected : waitFor env ending (freshDescription requestId responseType)
    (ownMessages requestId deliveries) = some response

/-- The wait as a machine that takes the buffers: `none` while it waits, then the response. -/
def waitStep (env : DecodeEnv) (requestId : UInt32) (responseType : ResponseType) :
    Option Value → Delivery → Option Value
  | none, d =>
    if d.callbacks = [] then none
    else some (d.callbacks.foldl (processServiceResponse env)
      (freshDescription requestId responseType)).response
  | some response, _ => some response

/-- While the call waits: the buffer is taken apart to its end, its last message that is not silent
is for the request and, if there is any response in the buffer, is one that carries the same as all
of them. Once the call has returned: a response that still comes carries what the call has
returned. -/
def BufferGuard (env : DecodeEnv) (requestId : UInt32) (responseType : ResponseType) :
    Option Value → Delivery → Prop
  | none, d =>
    d.ended = true ∧ ∀ pre c post, d.callbacks = pre ++ c :: post → ¬ IsSilent c →
      (∀ c' ∈ post, IsSilent c') →
      ¬ IsForeign requestId c ∧
        ∀ c' ∈ d.callbacks, ∀ response, IsResponse env requestId responseType c' response →
          IsResponse env requestId responseType c response
  | some response, d =>
    ∀ c ∈ d.callbacks, ∀ response', IsResponse env requestId responseType c response' →
      response' = response

theorem not_isForeign_of_silent {requestId : UInt32} {c : Callback} (h : IsSilent c) :
    ¬ IsForeign requestId c := by
  cases c with
  | error code reason => exact id
  | message messageType requestId' message => exact h.elim

/-- The messages of a buffer are silent, or there is a last one that is not. -/
theorem silent_cases (callbacks : List Callback) :
    (∀ c ∈ callbacks, IsSilent c) ∨ ∃ pre c post, callbacks = pre ++ c :: post ∧ ¬ IsSilent c ∧
      ∀ c' ∈ post, IsSilent c' := by
  induction callbacks with
  | nil => exact .inl fun c hc => nomatch hc
  | cons c callbacks ih =>
    rcases ih with hall | ⟨pre, c', post, rfl, hloud, hpost⟩
    · by_cases hc : IsSilent c
      · exact .inl (List.forall_mem_cons.mpr ⟨hc, hall⟩)
      · exact .inr ⟨[], c, callbacks, rfl, hc, hall⟩
    · exact .inr ⟨c :: pre, c', post, rfl, hloud, hpost⟩

theorem response_silent {callbacks : List Callback} (h : ∀ c ∈ callbacks, IsSilent c)
    (rd : ResponseDescription) :
    (callbacks.foldl (processServiceResponse env) rd).response = rd.response := by
  induction callbacks generalizing rd with
  | nil => rfl
  | cons c callbacks ih =>
    obtain ⟨hc, hall⟩ := List.forall_mem_cons.mp h
    rw [List.foldl_cons, ih hall]
    cases c with
    | error code reason =>
      show (finishResponse code _).response = _
      unfold finishResponse
      rw [if_pos (show code = StatusCode.good from hc)]
    | message messageType requestId message => exact hc.elim

theorem processed_foldl {callbacks : List Callback} (h : callbacks ≠ [])
    (rd : ResponseDescription) :
    (callbacks.foldl (processServiceResponse env) rd).processed = true := by
  obtain ⟨pre, c, rfl⟩ := (List.eq_nil_or_concat' callbacks).resolve_left h
  rw [List.foldl_append]
  exact (sameRequest_process _ _).2.2

section Guarded

variable {requestId : UInt32} {responseType : ResponseType}

/-- What a buffer that meets the guard makes of the response: the same as the messages for the
request alone, and what every response in it carries. -/
theorem response_of_guard {d : Delivery} (hsome : d.callbacks ≠ [])
    (hguard : BufferGuard env requestId responseType none d) :
    let own := d.callbacks.filter fun callback => ¬ IsForeign requestId callback
    let fresh := freshDescription requestId responseType
    own ≠ [] ∧
      (own.foldl (processServiceResponse env) fresh).response =
        (d.callbacks.foldl (processServiceResponse env) fresh).response ∧
      ∀ c ∈ d.callbacks, ∀ response, IsResponse env requestId responseType c response →
        response = (d.callbacks.foldl (processServiceResponse env) fresh).response := by
  intro own fresh
  have hfilter : ∀ {cs : List Callback}, (∀ c ∈ cs, IsSilent c) →
      (cs.filter fun callback => ¬ IsForeign requestId callback) = cs := by
    intro cs hcs
    rw [List.filter_eq_self]
    exact fun c hc => by simpa using not_isForeign_of_silent (hcs c hc)
  rcases silent_cases d.callbacks with hall | ⟨pre, c, post, hsplit, hloud, hpost⟩
  · have hown : own = d.callbacks := hfilter hall
    rw [hown]
    refine ⟨hsome, rfl, ?_⟩
    rintro c hc response ⟨message, rfl, -⟩
    exact (hall _ hc).elim
  · obtain ⟨hmine, hresponses⟩ := hguard.2 pre c post hsplit hloud hpost
    have hown : own =
        (pre.filter fun callback => ¬ IsForeign requestId callback) ++ c :: post := by
      show d.callbacks.filter _ = _
      rw [hsplit, List.filter_append, List.filter_cons,
        if_pos (by simpa using hmine), hfilter hpost]
    obtain ⟨hid, htype⟩ := @sameRequest_foldl env fresh pre
    have hmine' : ¬ IsForeign (pre.foldl (processServiceResponse env) fresh).requestId c := by
      rw [hid]
      exact hmine
    have hbody := @sameBody_own env fresh fresh ⟨rfl, rfl, fun _ => rfl, fun _ => rfl⟩ pre
    have hresponse := @response_of_own env _ _ hbody c hmine' hloud
    refine ⟨by rw [hown]; exact List.append_ne_nil_of_right_ne_nil _ (List.cons_ne_nil _ _), ?_, ?_⟩
    · rw [hown, hsplit, List.foldl_append, List.foldl_append, List.foldl_cons, List.foldl_cons,
        response_silent hpost, response_silent hpost]
      exact hresponse.symm
    · intro c' hc' response hcarries
      obtain ⟨message, rfl, hmatch, rfl⟩ := hresponses c' hc' response hcarries
      rw [hsplit, List.foldl_append, List.foldl_cons, response_silent hpost]
      exact (response_of_carries hid htype hmatch).symm

theorem responses_of_returned {deliveries : List Delivery} {response : Value}
    (h : Runs.Guarded (Runs.total (waitStep env requestId responseType))
      (BufferGuard env requestId responseType) (some response) deliveries) :
    ∀ d ∈ deliveries, ∀ c ∈ d.callbacks, ∀ response',
      IsResponse env requestId responseType c response' → response' = response := by
  induction deliveries with
  | nil => exact fun d hd => nomatch hd
  | cons d ds ih => exact List.forall_mem_cons.mpr ⟨h.1, ih h.2⟩

theorem waitFor_of_guarded {deliveries : List Delivery} (ending : StatusCode)
    (h : Runs.Guarded (Runs.total (waitStep env requestId responseType))
      (BufferGuard env requestId responseType) none deliveries) :
    ∃ response,
      waitFor env ending (freshDescription requestId responseType) deliveries = some response ∧
      waitFor env ending (freshDescription requestId responseType)
        (ownMessages requestId deliveries) = some response ∧
      ∀ d ∈ deliveries, ∀ c ∈ d.callbacks, ∀ response',
        IsResponse env requestId responseType c response' → response' = response := by
  induction deliveries with
  | nil => exact ⟨_, rfl, rfl, fun d hd => nomatch hd⟩
  | cons d ds ih =>
    obtain ⟨hguard, hrest⟩ := h
    have hended := hguard.1
    let own : Delivery :=
      ⟨d.callbacks.filter fun callback => ¬ IsForeign requestId callback, d.ended⟩
    have hcons : ownMessages requestId (d :: ds) = own :: ownMessages requestId ds := List.map_cons
    rw [hcons]
    by_cases hnone : d.callbacks = []
    · have hown : own.callbacks = [] := by
        show d.callbacks.filter _ = []
        rw [hnone, List.filter_nil]
      have hstep : waitStep env requestId responseType none d = none := if_pos hnone
      unfold Runs.total at hrest
      dsimp only at hrest
      rw [hstep] at hrest
      obtain ⟨response, hwait, hwaitOwn, hresponses⟩ := ih hrest
      refine ⟨response, ?_, ?_, List.forall_mem_cons.mpr ⟨?_, hresponses⟩⟩
      · rw [waitFor, hnone, hended, ← hwait]
        rfl
      · rw [waitFor, hown, show own.ended = true from hended, ← hwaitOwn]
        rfl
      · rw [hnone]
        exact fun c hc => nomatch hc
    · obtain ⟨hown, hsame, hresponses⟩ := response_of_guard hnone hguard
      have hstep : waitStep env requestId responseType none d = _ := if_neg hnone
      unfold Runs.total at hrest
      dsimp only at hrest
      rw [hstep] at hrest
      refine ⟨_, ?_, ?_, List.forall_mem_cons.mpr ⟨hresponses, responses_of_returned hrest⟩⟩
      · rw [waitFor, hended, if_neg (by decide), if_pos (processed_foldl hnone _)]
      · rw [waitFor, show own.ended = true from hended, if_neg (by decide),
          if_pos (processed_foldl hown _)]
        exact congrArg some hsame

end Guarded

/-- `UA_CloseSessionResponse`, which has no more than the header. -/
def closeSessionResponse : ResponseType where
  info := ⟨⟨0, .numeric 474⟩, 136, 476⟩
  memSize_pos := by decide
  rest := .nil

/-- The body of a CloseSessionResponse with the status Good. -/
def closeSessionBody : List UInt8 :=
  [1, 0, 0xDC, 1, 0, 0, 0, 0, 0, 0, 0, 0, 0, 0, 0, 0, 0, 0, 0, 0, 0, 0xFF, 0xFF, 0xFF, 0xFF, 0,
    0, 0]

/-- The message with it, as the answer to some request. -/
def closeSessionMessage (sequenceNumber requestId : UInt8) : List UInt8 :=
  [0x4D, 0x53, 0x47, 0x46, 52, 0, 0, 0, 1, 0, 0, 0, 1, 0, 0, 0, sequenceNumber, 0, 0, 0,
    requestId, 0, 0, 0] ++ closeSessionBody

def sampleClient : UaClient where
  connection := ⟨65535, []⟩
  channel := ⟨⟨⟨1, 1⟩, ⟨0, 0⟩, 10⟩, []⟩
  requestHandle := 4
  requestId := 4
  state := .connected

def sampleSending : Sending where
  renewSecureChannel client := (client, StatusCode.good)
  sendBinaryMessage client _ := (client, StatusCode.good)

def sampleEnv : DecodeEnv where
  types := []
  customTypes := []
  calloc _ := true

/-- The status in the header of a response. -/
def serviceResult : Value → Option StatusCode
  | .structure (.scalar (.structure (.scalar _ (.scalar _ (.scalar (.uint32 retval) _)))) _) =>
    some retval
  | _ => none

theorem carries_closeSession :
    Carries sampleEnv closeSessionBody closeSessionResponse.info.binaryEncodingId :=
  ⟨by decide +kernel, by decide +kernel⟩

def sentClient : UaClient := { sampleClient with requestHandle := 5, requestId := 5 }

theorem sendRequest_sample : sendRequest sampleSending sampleClient = (sentClient, .ok 5) := rfl

/-- A response to an earlier request in front of the one that is waited for, and one to another
request behind them. -/
def inOnePacket : List Received :=
  [⟨StatusCode.good, closeSessionMessage 11 3 ++ closeSessionMessage 12 5⟩,
    ⟨StatusCode.good, closeSessionMessage 13 4⟩]

def inTwoPackets : List Received :=
  [⟨StatusCode.good, closeSessionMessage 11 3⟩, ⟨StatusCode.good, closeSessionMessage 12 5⟩]

def closeSessionCallback (requestId : UInt32) : Callback :=
  .message messageTypeMsg requestId closeSessionBody

theorem messagesReceived_inOnePacket :
    messagesReceived sentClient.connection sentClient.channel inOnePacket =
      ([⟨[closeSessionCallback 3, closeSessionCallback 5], true⟩, ⟨[closeSessionCallback 4], true⟩],
        StatusCode.goodNonCriticalTimeout) := by
  decide +kernel

theorem messagesReceived_inTwoPackets :
    messagesReceived sentClient.connection sentClient.channel inTwoPackets =
      ([⟨[closeSessionCallback 3], true⟩, ⟨[closeSessionCallback 5], true⟩],
        StatusCode.goodNonCriticalTimeout) := by
  decide +kernel

theorem response_closeSession {requestId : UInt32} {response : Value}
    (h : IsResponse sampleEnv 5 closeSessionResponse (closeSessionCallback requestId) response) :
    requestId = 5 ∧ response = carried sampleEnv closeSessionResponse closeSessionBody := by
  obtain ⟨message, heq, -, rfl⟩ := h
  cases heq
  exact ⟨rfl, rfl⟩

theorem guarded_inOnePacket :
    Runs.Guarded (Runs.total (waitStep sampleEnv 5 closeSessionResponse))
      (BufferGuard sampleEnv 5 closeSessionResponse) none
      [⟨[closeSessionCallback 3, closeSessionCallback 5], true⟩,
        ⟨[closeSessionCallback 4], true⟩] := by
  refine ⟨⟨rfl, ?_⟩, ?_, trivial⟩
  · intro pre c post hsplit hloud hpost
    obtain rfl : post = [] := by
      cases post with
      | nil => rfl
      | cons c' post =>
        have hmem : c' ∈ [closeSessionCallback 3, closeSessionCallback 5] := by
          rw [show [closeSessionCallback 3, closeSessionCallback 5] = _ from hsplit]
          simp
        have hsilent := hpost c' List.mem_cons_self
        simp only [List.mem_cons, List.not_mem_nil, or_false] at hmem
        rcases hmem with rfl | rfl
        · exact hsilent.elim
        · exact hsilent.elim
    obtain ⟨-, hlast⟩ :=
      List.append_inj' (show [closeSessionCallback 3] ++ [closeSessionCallback 5] =
      pre ++ [c] from hsplit) rfl
    obtain rfl := (List.cons.inj hlast).1
    refine ⟨not_not.mpr rfl, fun c' hc' response hresponse => ?_⟩
    simp only [List.mem_cons, List.not_mem_nil, or_false] at hc'
    rcases hc' with rfl | rfl
    · exact absurd (response_closeSession hresponse).1 (by decide)
    · exact hresponse
  · intro c hc response hresponse
    obtain rfl := List.mem_singleton.mp hc
    exact absurd (response_closeSession hresponse).1 (by decide)

end FactoryThing.Client
