import FactoryThing.Bridge.TcpPublishing

/-!
# Publishing over MQTT

`mqtt_publish` (`mqtt/client-mqtt.c:81-99`) with `MQTTSerialize_publish` of the packet library
(`MQTTPacket/src/MQTTSerializePublish.c`, `MQTTPacket/src/MQTTPacket.c`). What the library returns
goes to `write` as the number of bytes, the code for a buffer that is too short as well. Where an
`int` overflows, or memory outside of a text or a buffer is accessed, nothing is said about what the
program does.
-/

namespace FactoryThing.Bridge

open FormattedText

/-- The sum of two `int`s. -/
def addInt (a b : Int) : Option Int :=
  if -2147483648 ≤ a + b ∧ a + b < 2147483648 then some (a + b) else none

/-- `memcpy(ptr, src, len)` with an `int` for the length: the bytes that are copied. -/
def memcpyInt (src : Text) (len : Int) : Option Text :=
  if ofInt len ≤ src.length then some (src.take (ofInt len)) else none

/-- `writeInt` (`:164-170`): two bytes. -/
def writeInt (anInt : Int) : Text := [UInt8.ofInt (anInt.tdiv 256), UInt8.ofInt (anInt.tmod 256)]

/-- `MQTTstrlen` of a C string. -/
def mqttStrlen (mqttstring : CString) : Int := toInt mqttstring.text.length

/-- `writeMQTTString` of a C string. -/
def writeMqttString (mqttstring : CString) : Option Text := do
  let len := mqttStrlen mqttstring
  let copied ← memcpyInt mqttstring.text len
  return writeInt len ++ copied

theorem tdiv_toNat_lt {length : Int} (h : 0 < length.tdiv 128) :
    (length.tdiv 128).toNat < length.toNat := by
  have hpos : 0 ≤ length := by
    by_contra hneg
    have := Int.tdiv_nonneg (show 0 ≤ -length by omega) (show (0 : Int) ≤ 128 by decide)
    rw [Int.neg_tdiv] at this
    omega
  rw [Int.tdiv_eq_ediv_of_nonneg hpos] at h ⊢
  omega

/-- `MQTTPacket_encode` (`:29-45`): seven bits a byte. -/
def mqttPacketEncode (length : Int) : Text :=
  let d := UInt8.ofInt (length.tmod 128)
  if h : 0 < length.tdiv 128 then (d ||| 0x80) :: mqttPacketEncode (length.tdiv 128) else [d]
termination_by length.toNat
decreasing_by exact tdiv_toNat_lt h

/-- `MQTTPacket_len` (`MQTTPacket.c:84-98`). -/
def mqttPacketLen (remLen : Int) : Option Int := do
  let remLen ← addInt remLen 1
  if remLen < 128 then addInt remLen 1
  else if remLen < 16384 then addInt remLen 2
  else if remLen < 2097151 then addInt remLen 3
  else addInt remLen 4

/-- `MQTTSerialize_publishLength`. -/
def mqttSerializePublishLength (qos : Int) (topicName : CString) (payloadlen : Int) :
    Option Int := do
  let len ← addInt 2 (mqttStrlen topicName)
  let len ← addInt len payloadlen
  if 0 < qos then addInt len 2 else some len

def mqttPacketBufferTooShort : Int := -2

def publishHeader (dup : UInt8) (qos : Int) (retained : UInt8) : UInt8 :=
  3 * 16 + dup % 2 * 8 + UInt8.ofInt (qos % 4) * 2 + retained % 2

/-- `MQTTSerialize_publish`: what it returns, and the buffer. -/
def mqttSerializePublish (buf : List UInt8) (dup : UInt8) (qos : Int) (retained : UInt8)
    (packetid : UInt16) (topicName : CString) (payload : Text) (payloadlen : Int) :
    Option (Int × List UInt8) := do
  let remLen ← mqttSerializePublishLength qos topicName payloadlen
  let len ← mqttPacketLen remLen
  if len > buf.length then return (mqttPacketBufferTooShort, buf)
  else
    let topic ← writeMqttString topicName
    let copied ← memcpyInt payload payloadlen
    let written := publishHeader dup qos retained :: (mqttPacketEncode remLen ++ topic ++
      (if 0 < qos then writeInt packetid.toNat else []) ++ copied)
    if written.length ≤ buf.length then
      return (written.length, written ++ buf.drop written.length)
    else none

/-- Memory that is given to the system with a number of bytes. -/
structure Handed where
  buf : List UInt8
  count : Nat
  deriving DecidableEq

/-- `transport_sendPacketBuffer` (`mqtt/transport.c:74-79`). -/
def transportSendPacketBuffer (buf : List UInt8) (buflen : Int) (d : Device) : Int × Handed :=
  (toInt (d.result (ofInt buflen)), ⟨buf, ofInt buflen⟩)

/-- `mqtt_publish`: quality of service 0, not retained. -/
def mqttPublish (topic value : CString) (d : Device) : Option (Int × Handed) := do
  let (len, buf) ← mqttSerializePublish (List.replicate 200 0) 0 0 0 0 topic value.text
    (toInt value.text.length)
  return transportSendPacketBuffer buf len d

/-- The PUBLISH packet of a topic and a payload: the first byte, the remaining length, the topic
with its length, and the payload. -/
def publishPacket (topic value : CString) : Text :=
  publishHeader 0 0 0 :: (mqttPacketEncode (2 + topic.text.length + value.text.length) ++
    writeInt topic.text.length ++ topic.text ++ value.text)

variable {n : Nat} {remLen : Int} {topic value : CString} {d : Device}

theorem toInt_of_lt (h : n < 2147483648) : toInt n = n :=
  Int.bmod_eq_of_le (by omega) (by omega)

theorem ofInt_natCast (h : n < 2 ^ 64) : ofInt n = n := by
  rw [ofInt, Int.emod_eq_of_lt (by omega) (by omega), Int.toNat_natCast]

theorem addInt_of_lt {a b : Int} (ha : 0 ≤ a) (hb : 0 ≤ b) (h : a + b < 2147483648) :
    addInt a b = some (a + b) := if_pos ⟨by omega, h⟩

theorem memcpyInt_all {src : Text} (h : src.length < 2147483648) :
    memcpyInt src src.length = some src := by
  simp [memcpyInt, ofInt_natCast (show src.length < 2 ^ 64 by omega)]

theorem mqttPacketEncode_of_lt {n : Int} (h : 0 ≤ n) (hlt : n < 128) :
    (mqttPacketEncode n).length = 1 := by
  have hdiv : ¬ 0 < n.tdiv 128 := by rw [Int.tdiv_eq_ediv_of_nonneg h]; omega
  rw [mqttPacketEncode, dif_neg hdiv, List.length_singleton]

theorem mqttPacketEncode_of_le {n : Int} (h : 128 ≤ n) :
    (mqttPacketEncode n).length = (mqttPacketEncode (n / 128)).length + 1 := by
  have hdiv : n.tdiv 128 = n / 128 := Int.tdiv_eq_ediv_of_nonneg (by omega)
  rw [mqttPacketEncode, dif_pos (by rw [hdiv]; omega), hdiv, List.length_cons]

theorem mqttPacketEncode_pos (n : Int) : 0 < (mqttPacketEncode n).length := by
  rw [mqttPacketEncode]
  split <;> simp

theorem writeInt_length (n : Int) : (writeInt n).length = 2 := rfl

theorem publishPacket_length (topic value : CString) :
    (publishPacket topic value).length =
      3 + (mqttPacketEncode (2 + topic.text.length + value.text.length)).length +
        topic.text.length + value.text.length := by
  simp [publishPacket, writeInt_length]
  omega

theorem lt_of_addInt {a b sum : Int} (h : addInt a b = some sum) :
    -2147483648 ≤ a + b ∧ a + b < 2147483648 := by
  by_contra hout
  rw [addInt, if_neg hout] at h
  cases h

theorem lt_of_mqttPacketLen {len : Int} (h : mqttPacketLen remLen = some len) :
    remLen + 1 < 2147483648 := by
  rcases Option.bind_eq_some_iff.mp h with ⟨sum, hsum, -⟩
  exact (lt_of_addInt hsum).2

theorem mqttSerializePublishLength_eq (h : 2 + topic.text.length + value.text.length < 2147483648) :
    mqttSerializePublishLength 0 topic (toInt value.text.length) =
      some (2 + (topic.text.length : Int) + value.text.length) := by
  have htopic : mqttStrlen topic = topic.text.length := toInt_of_lt (by omega)
  have hvalue : toInt value.text.length = value.text.length := toInt_of_lt (by omega)
  have hfirst : addInt 2 topic.text.length = some (2 + (topic.text.length : Int)) :=
    addInt_of_lt (by omega) (by omega) (by omega)
  have hsecond : addInt (2 + topic.text.length) value.text.length =
      some (2 + (topic.text.length : Int) + value.text.length) :=
    addInt_of_lt (by omega) (by omega) (by omega)
  rw [mqttSerializePublishLength, htopic, hvalue, hfirst, Option.bind_eq_bind, Option.bind_some,
    hsecond, Option.bind_some, if_neg (lt_irrefl 0)]

theorem mqttSerializePublish_eq {buf : List UInt8} {len : Int}
    (hlen : mqttPacketLen (2 + topic.text.length + value.text.length) = some len)
    (hbuf : len ≤ buf.length) (hpacket : (publishPacket topic value).length ≤ buf.length) :
    mqttSerializePublish buf 0 0 0 0 topic value.text (toInt value.text.length) =
      some (((publishPacket topic value).length : Int),
        publishPacket topic value ++ buf.drop (publishPacket topic value).length) := by
  have hlt := lt_of_mqttPacketLen hlen
  have htopic : mqttStrlen topic = topic.text.length := toInt_of_lt (by omega)
  have hvalue : toInt value.text.length = value.text.length := toInt_of_lt (by omega)
  have hwritten : writeMqttString topic =
      some (writeInt topic.text.length ++ topic.text) := by
    simp [writeMqttString, htopic, memcpyInt_all (show topic.text.length < 2147483648 by omega)]
  have hcopied : memcpyInt value.text (toInt value.text.length) = some value.text := by
    rw [hvalue, memcpyInt_all (by omega)]
  have hall : publishHeader 0 0 0 ::
    (mqttPacketEncode (2 + topic.text.length + value.text.length) ++
      (writeInt topic.text.length ++ topic.text) ++ [] ++ value.text) =
        publishPacket topic value := by
    simp [publishPacket]
  have hlength := @mqttSerializePublishLength_eq topic value (by omega)
  rw [mqttSerializePublish, hlength, Option.bind_eq_bind, Option.bind_some, hlen, Option.bind_some,
    if_neg (Int.not_lt.mpr hbuf), hwritten, Option.bind_eq_bind, Option.bind_some, hcopied,
    Option.bind_some, if_neg (lt_irrefl 0), hall]
  exact if_pos hpacket

theorem mqttSerializePublish_length {buf buf' : List UInt8} {dup retained : UInt8} {qos rc : Int}
    {packetid : UInt16} {topic : CString} {payload : Text} {payloadlen : Int}
    (h : mqttSerializePublish buf dup qos retained packetid topic payload payloadlen =
      some (rc, buf')) : buf'.length = buf.length := by
  simp only [mqttSerializePublish, Option.bind_eq_bind, Option.bind_eq_some_iff] at h
  rcases h with ⟨remLen, -, len, -, h⟩
  split at h
  · cases h
    rfl
  · simp only [Option.bind_eq_some_iff] at h
    rcases h with ⟨topic', -, copied, -, h⟩
    rw [Option.ite_none_right_eq_some] at h
    rcases h with ⟨hle, h⟩
    cases h
    rw [List.length_append, List.length_drop]
    omega

/-- The message, and nothing else, is given to the system, and the result is negative when the
system has not accepted all of it. -/
structure WholeOrFails (message : Text) (d : Device) (handed : Handed) (rc : Int) : Prop where
  whole : handed.count = message.length ∧ handed.buf.take handed.count = message
  fails : 0 ≤ rc → d.accepts handed.count = some message.length

/-- `mqtt_publish` does so with the packet. -/
def MqttPublishes (topic value : CString) (d : Device) : Prop :=
  ∃ rc handed, mqttPublish topic value d = some (rc, handed) ∧
    WholeOrFails (publishPacket topic value) d handed rc

/-- `tcp_publish` does so with the payload. -/
def TcpPublishes (singleshot : Bool) (m : TcpMessage) (s : TcpState) : Prop :=
  ∃ handed rest, (tcpPublish singleshot m s).2.calls =
      s.calls ++ .send s.sock handed.buf handed.count :: rest ∧
    (∀ fd buf count, SystemCall.send fd buf count ∉ rest) ∧
    WholeOrFails m.value.text m.device handed (tcpPublish singleshot m s).1

/-- The system call fails, or accepts all the bytes. -/
def Device.AllOrNone (d : Device) (count : Nat) : Prop :=
  d.accepts count = none ∨ d.accepts count = some count

theorem Device.fails_iff {count : Nat} (h : count < 2147483648) :
    (0 ≤ toInt (d.result count) → d.accepts count = some count) ↔ d.AllOrNone count := by
  cases haccepts : d.accepts count with
  | none => simp [Device.AllOrNone, haccepts, Device.result, toInt, Int.bmod]
  | some n =>
    have hle := d.accepts_le count n haccepts
    have hresult : toInt (d.result count) = n := by
      rw [Device.result, haccepts]
      exact toInt_of_lt (by omega)
    simp [Device.AllOrNone, haccepts, hresult]

theorem ofInt_toInt_iff (h : n < 2 ^ 63) : ofInt (toInt n) = n ↔ n < 2147483648 := by
  constructor
  · intro heq
    by_contra hge
    simp only [ofInt, toInt, Int.bmod] at heq
    omega
  · intro hlt
    rw [toInt_of_lt hlt, ofInt_natCast (by omega)]

theorem tcpPublish_fst (singleshot : Bool) (m : TcpMessage) (s : TcpState) :
    (tcpPublish singleshot m s).1 =
      toInt (m.device.result (ofInt (toInt m.value.text.length))) := by
  cases singleshot <;> rfl

theorem Opening.not_send (o : Opening) (fd : Int) (buf : List UInt8) (count : Nat) :
    SystemCall.send fd buf count ∉ o.calls := by
  rcases o with ⟨rc, _ | n, connected⟩ <;> by_cases hrc : rc = 0 <;> simp [Opening.calls, hrc]

theorem tcpPublishes_iff {singleshot : Bool} {m : TcpMessage} {s : TcpState} :
    TcpPublishes singleshot m s ↔
      m.value.text.length < 2147483648 ∧ m.device.AllOrNone m.value.text.length := by
  have hcalls := (tcpPublish_eq singleshot m s).1
  constructor
  · intro h
    rcases h with ⟨⟨buf, count⟩, rest, hsent, -, ⟨hcount, -⟩, hfails⟩
    rw [hcalls, List.append_cancel_left_eq, TcpMessage.calls, List.cons.injEq,
      SystemCall.send.injEq] at hsent
    rcases hsent with ⟨⟨-, -, rfl⟩, -⟩
    dsimp only at hcount hfails
    have hlt := (ofInt_toInt_iff m.value.short).mp hcount
    rw [tcpPublish_fst, hcount] at hfails
    exact ⟨hlt, (Device.fails_iff hlt).mp hfails⟩
  · intro h
    have hcount := (ofInt_toInt_iff m.value.short).mpr h.1
    refine ⟨⟨m.value.text, m.value.text.length⟩,
      if singleshot then .close s.sock :: m.opening.calls else [], ?_, ?_,
        ⟨rfl, List.take_length⟩, ?_⟩
    · rw [hcalls, TcpMessage.calls, hcount]
    · intro fd buf count
      cases singleshot <;> simp [Opening.not_send]
    · rw [tcpPublish_fst, hcount]
      exact (Device.fails_iff h.1).mpr h.2

theorem publishPacket_length_le_iff :
    (publishPacket topic value).length ≤ 200 ↔ topic.text.length + value.text.length ≤ 195 := by
  rw [publishPacket_length]
  by_cases hshort : topic.text.length + value.text.length < 126
  · rw [mqttPacketEncode_of_lt (by omega) (by omega)]
    omega
  · rw [mqttPacketEncode_of_le (by omega)]
    have hpos := mqttPacketEncode_pos ((2 + topic.text.length + value.text.length) / 128)
    by_cases hfits : topic.text.length + value.text.length ≤ 195
    · rw [mqttPacketEncode_of_lt (by omega) (by omega)]
      omega
    · omega

theorem mqttPacketLen_le (h : 0 ≤ remLen) (hle : remLen ≤ 197) :
    ∃ len, mqttPacketLen remLen = some len ∧ len ≤ 200 := by
  have hone : addInt remLen 1 = some (remLen + 1) := addInt_of_lt h (by decide) (by omega)
  by_cases hshort : remLen + 1 < 128
  · refine ⟨remLen + 1 + 1, ?_, by omega⟩
    rw [mqttPacketLen, hone, Option.bind_eq_bind, Option.bind_some, if_pos hshort,
      addInt_of_lt (by omega) (by decide) (by omega)]
  · refine ⟨remLen + 1 + 2, ?_, by omega⟩
    rw [mqttPacketLen, hone, Option.bind_eq_bind, Option.bind_some, if_neg hshort,
      if_pos (by omega), addInt_of_lt (by omega) (by decide) (by omega)]

theorem mqttPublish_eq (d : Device) (h : topic.text.length + value.text.length ≤ 195) :
    ∃ behind, mqttPublish topic value d =
      some (toInt (d.result (publishPacket topic value).length),
        ⟨publishPacket topic value ++ behind, (publishPacket topic value).length⟩) := by
  rcases @mqttPacketLen_le (2 + topic.text.length + value.text.length) (by omega) (by omega)
    with ⟨len, hlen, hle⟩
  have hpacket := publishPacket_length_le_iff.mpr h
  have hserialized := @mqttSerializePublish_eq topic value (List.replicate 200 0) len hlen
    (by rw [List.length_replicate]; exact hle) (by rw [List.length_replicate]; exact hpacket)
  refine ⟨(List.replicate 200 0).drop (publishPacket topic value).length, ?_⟩
  rw [mqttPublish, hserialized, Option.bind_eq_bind, Option.bind_some]
  simp only [transportSendPacketBuffer, ofInt_natCast (show (publishPacket topic value).length <
    2 ^ 64 by omega)]
  rfl

theorem mqttPublish_buf {rc : Int} {handed : Handed}
    (h : mqttPublish topic value d = some (rc, handed)) : handed.buf.length = 200 := by
  rw [mqttPublish, Option.bind_eq_bind, Option.bind_eq_some_iff] at h
  rcases h with ⟨⟨len, buf⟩, hserialized, hsent⟩
  rcases Prod.mk.inj (Option.some.inj hsent) with ⟨-, rfl⟩
  exact (mqttSerializePublish_length hserialized).trans List.length_replicate

theorem mqttPublishes_iff :
    MqttPublishes topic value d ↔
      topic.text.length + value.text.length ≤ 195 ∧
        d.AllOrNone (publishPacket topic value).length := by
  constructor
  · intro h
    rcases h with ⟨rc, handed, hpublished, ⟨hcount, htake⟩, hfails⟩
    have hbuf := mqttPublish_buf hpublished
    have hle : (publishPacket topic value).length ≤ 200 := by
      rw [← htake, ← hbuf]
      exact List.length_take_le' _ _
    have hfits := publishPacket_length_le_iff.mp hle
    refine ⟨hfits, (Device.fails_iff (by omega)).mp ?_⟩
    rcases mqttPublish_eq d hfits with ⟨behind, heq⟩
    rw [heq] at hpublished
    cases hpublished
    exact hfails
  · intro h
    rcases mqttPublish_eq d h.1 with ⟨behind, heq⟩
    have hle := publishPacket_length_le_iff.mpr h.1
    exact ⟨_, _, heq, ⟨rfl, List.take_left' rfl⟩, (Device.fails_iff (by omega)).mpr h.2⟩

/-- What the two publishers need for a message to go out whole or to fail. -/
theorem publish_wholeOrFails_iff (topic value : CString) (d : Device) (singleshot : Bool)
    (m : TcpMessage) (s : TcpState) :
    (MqttPublishes topic value d ↔
      topic.text.length + value.text.length ≤ 195 ∧
        d.AllOrNone (publishPacket topic value).length) ∧
    (TcpPublishes singleshot m s ↔
      m.value.text.length < 2 ^ 31 ∧ m.device.AllOrNone m.value.text.length) :=
  ⟨mqttPublishes_iff, tcpPublishes_iff⟩

/-- A value of 195 characters under a topic of one. -/
theorem mqttPublish_notWhole :
    ¬ ∀ topic value d, MqttPublishes topic value d := by
  intro h
  have hnoNul : (0 : UInt8) ∉ List.replicate 195 97 := by
    rw [List.mem_replicate]
    decide
  have hshort : (List.replicate 195 (97 : UInt8)).length < 2 ^ 63 := by
    rw [List.length_replicate]
    decide
  have hfits := (mqttPublishes_iff.mp (h ⟨ascii "t", by decide, by decide⟩ ⟨_, hnoNul, hshort⟩
    ⟨fun _ => none, by simp⟩)).1
  rw [List.length_replicate] at hfits
  revert hfits
  decide

end FactoryThing.Bridge
