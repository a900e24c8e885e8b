import FactoryThing.Bridge.MqttPublishing

/-!
# Reading MQTT packets

`MQTTDeserialize_publish` (`MQTTPacket/src/MQTTDeserializePublish.c:36-69`) with the readers of
`MQTTPacket/src/MQTTPacket.c`. A pointer is a place in the buffer; where memory behind the buffer is
read, nothing is said about what the program does.
-/

namespace FactoryThing.Bridge

open FormattedText

/-- `MQTTPacket_decode` over a buffer (`MQTTPacket.c:54-81`): what it returns, and the value. A
fifth byte is counted and not read. -/
def mqttPacketDecode (len multiplier value : Nat) : Text → Option (Nat × Nat)
  | [] => if 4 < len + 1 then some (len + 1, value) else none
  | c :: rest =>
    if 4 < len + 1 then some (len + 1, value)
    else if c &&& 128 = 0 then some (len + 1, value + (c &&& 127).toNat * multiplier)
    else mqttPacketDecode (len + 1) (multiplier * 128) (value + (c &&& 127).toNat * multiplier) rest

/-- `readInt` (`MQTTPacket.c:125-131`): two bytes. -/
def readInt (buf : List UInt8) (ptr : Nat) : Option Nat := do
  let high ← buf[ptr]?
  let low ← buf[ptr + 1]?
  return 256 * high.toNat + low.toNat

/-- The `lenstring` of an `MQTTString`, with `none` for what is not stored. -/
structure MqttLenString where
  len : Option Nat
  data : Option Nat
  deriving DecidableEq

/-- `readMQTTLenString`: the string, whether it is read, and the pointer behind it. -/
def readMqttLenString (buf : List UInt8) (pptr enddata : Nat) :
    Option (MqttLenString × Bool × Nat) :=
  if pptr + 1 < enddata then do
    let len ← readInt buf pptr
    if pptr + 2 + len ≤ enddata then
      return (⟨some len, some (pptr + 2)⟩, true, pptr + 2 + len)
    else return (⟨some len, none⟩, false, pptr + 2)
  else some (⟨none, none⟩, false, pptr)

/-- What `MQTTDeserialize_publish` stores, `payload` with `payloadlen`. -/
structure PublishFields where
  dup : UInt8
  qos : Int
  retained : UInt8
  topicName : MqttLenString
  packetid : Option UInt16
  payload : Option (Nat × Int)
  deriving DecidableEq

/-- `MQTTDeserialize_publish`: what it returns, and what it stores. -/
def mqttDeserializePublish (buf : List UInt8) : Option (Nat × Option PublishFields) := do
  let byte ← buf[0]?
  if byte / 16 ≠ 3 then return (0, none)
  else
    let (rc, mylen) ← mqttPacketDecode 0 1 0 (buf.drop 1)
    let enddata := 1 + rc + mylen
    let (topicName, read, curdata) ← readMqttLenString buf (1 + rc) enddata
    let fields : PublishFields :=
      ⟨byte / 8 % 2, (byte / 2 % 4).toNat, byte % 2, topicName, none, none⟩
    if read = false ∨ enddata < curdata then return (rc, some fields)
    else if 0 < fields.qos then
      let packetid ← readInt buf curdata
      return (1, some { fields with
        packetid := some (UInt16.ofNat packetid)
        payload := some (curdata + 2, (enddata : Int) - (curdata + 2 : Nat)) })
    else return (1, some { fields with payload := some (curdata, (enddata : Int) - curdata) })

/-- A message as its receiver finds it behind the pointers. -/
structure ReceivedMessage where
  dup : UInt8
  qos : Int
  retained : UInt8
  topic : Text
  packetid : Option UInt16
  payload : Text
  deriving DecidableEq

/-- The message in a packet that has been read. -/
def PublishFields.message (fields : PublishFields) (buf : List UInt8) : Option ReceivedMessage := do
  let len ← fields.topicName.len
  let data ← fields.topicName.data
  let (payload, payloadlen) ← fields.payload
  return ⟨fields.dup, fields.qos, fields.retained, (buf.drop data).take len, fields.packetid,
    (buf.drop payload).take payloadlen.toNat⟩

variable {n : Nat} {buf rest : List UInt8}

theorem ofInt_eq_ofNat (n : Nat) : UInt8.ofInt n = UInt8.ofNat n := by
  have hmod : ((n : Int) % 256).toNat = n % 256 := by omega
  change UInt8.ofNat ((n : Int) % 256).toNat = UInt8.ofNat n
  rw [hmod]
  exact UInt8.ofNat_mod_size

theorem digit_bits : ∀ n : Fin 128,
    UInt8.ofNat n &&& 128 = 0 ∧ (UInt8.ofNat n &&& 127).toNat = n ∧
      ¬ (UInt8.ofNat n ||| 128) &&& 128 = 0 ∧ ((UInt8.ofNat n ||| 128) &&& 127).toNat = n := by
  decide

theorem mqttPacketEncode_natCast (n : Nat) :
    mqttPacketEncode n = if n < 128 then [UInt8.ofNat n]
      else (UInt8.ofNat (n % 128) ||| 128) :: mqttPacketEncode (n / 128 : Nat) := by
  have hdiv : (n : Int).tdiv 128 = (n / 128 : Nat) := rfl
  have hmod : (n : Int).tmod 128 = (n % 128 : Nat) := rfl
  rw [mqttPacketEncode]
  simp only [hdiv, hmod, ofInt_eq_ofNat]
  by_cases hlt : n < 128
  · rw [if_pos hlt, dif_neg (by omega), Nat.mod_eq_of_lt hlt]
  · rw [if_neg hlt, dif_pos (by omega)]

/-- The reader of the remaining length undoes its writer, whatever comes behind. -/
theorem mqttPacketDecode_encode {k : Nat} (rest : Text) : ∀ {n len multiplier value : Nat},
    n < 128 ^ (k + 1) → len + k + 1 ≤ 4 →
      mqttPacketDecode len multiplier value (mqttPacketEncode n ++ rest) =
        some (len + (mqttPacketEncode n).length, value + n * multiplier) := by
  induction k with
  | zero =>
    intro n len multiplier value hn hlen
    rcases digit_bits ⟨n, by simpa using hn⟩ with ⟨hlast, hdigit, -⟩
    rw [mqttPacketEncode_natCast, if_pos (by simpa using hn)]
    simp only [List.cons_append, mqttPacketDecode, if_neg (show ¬ 4 < len + 1 by omega), hlast,
      hdigit, if_true, List.length_singleton]
  | succ k ih =>
    intro n len multiplier value hn hlen
    by_cases hlt : n < 128
    · rcases digit_bits ⟨n, hlt⟩ with ⟨hlast, hdigit, -⟩
      rw [mqttPacketEncode_natCast, if_pos hlt]
      simp only [List.cons_append, mqttPacketDecode, if_neg (show ¬ 4 < len + 1 by omega), hlast,
        hdigit, if_true, List.length_singleton]
    · rcases digit_bits ⟨n % 128, by omega⟩ with ⟨-, -, hmore, hdigit⟩
      have hrest : n / 128 < 128 ^ (k + 1) := by
        rw [Nat.div_lt_iff_lt_mul (by decide), ← pow_succ]
        exact hn
      have hvalue : value + n % 128 * multiplier + n / 128 * (multiplier * 128) =
          value + n * multiplier := by
        conv_rhs => rw [← Nat.mod_add_div n 128]
        ring
      rw [mqttPacketEncode_natCast, if_neg hlt]
      simp only [List.cons_append, mqttPacketDecode, if_neg (show ¬ 4 < len + 1 by omega),
        if_neg hmore, hdigit, List.length_cons]
      rw [ih hrest (by omega), hvalue, Nat.add_right_comm, Nat.add_assoc]

theorem readInt_writeInt (front : List UInt8) (h : n < 65536) (rest : List UInt8) :
    readInt (front ++ (writeInt n ++ rest)) front.length = some n := by
  have hdiv : (n : Int).tdiv 256 = (n / 256 : Nat) := rfl
  have hmod : (n : Int).tmod 256 = (n % 256 : Nat) := rfl
  have hhigh : n / 256 % 256 = n / 256 := Nat.mod_eq_of_lt (by omega)
  rw [writeInt, hdiv, hmod, ofInt_eq_ofNat, ofInt_eq_ofNat]
  simp [readInt, hhigh, Nat.div_add_mod]

theorem mod_two (b : UInt8) : b % 2 = 0 ∨ b % 2 = 1 := by
  rcases Nat.mod_two_eq_zero_or_one b.toNat with h | h
  · exact .inl (UInt8.toNat_inj.mp h)
  · exact .inr (UInt8.toNat_inj.mp h)

theorem publishHeader_bits (dup retained : UInt8) (qos : Fin 4) :
    publishHeader dup qos retained / 16 = 3 ∧ publishHeader dup qos retained / 8 % 2 = dup % 2 ∧
      (publishHeader dup qos retained / 2 % 4).toNat = qos ∧
      publishHeader dup qos retained % 2 = retained % 2 := by
  unfold publishHeader
  rcases mod_two dup with hdup | hdup <;> rcases mod_two retained with hretained | hretained <;>
    rw [hdup, hretained] <;> fin_cases qos <;> decide

/-- The remaining length of a PUBLISH packet. -/
def remainingLength (qos : Nat) (topic payload : Text) : Nat :=
  2 + topic.length + payload.length + if 0 < qos then 2 else 0

/-- The packet that `MQTTSerialize_publish` writes. -/
def publishPacketOf (dup : UInt8) (qos : Nat) (retained : UInt8) (packetid : UInt16)
    (topic payload : Text) : Text :=
  publishHeader dup qos retained :: (mqttPacketEncode (remainingLength qos topic payload) ++
    (writeInt topic.length ++ (topic ++
      ((if 0 < qos then writeInt packetid.toNat else []) ++ payload))))

theorem mqttDeserializePublish_eq {byte : UInt8} {rc mylen len : Nat} (hbyte : buf[0]? = some byte)
    (htype : byte / 16 = 3) (hdecode : mqttPacketDecode 0 1 0 (buf.drop 1) = some (rc, mylen))
    (hlen : readInt buf (1 + rc) = some len) (hfits : 2 + len ≤ mylen) :
    mqttDeserializePublish buf =
      if 0 < (byte / 2 % 4).toNat then (readInt buf (3 + rc + len)).map fun packetid =>
        (1, some ⟨byte / 8 % 2, (byte / 2 % 4).toNat, byte % 2, ⟨some len, some (3 + rc)⟩,
          some (UInt16.ofNat packetid), some (5 + rc + len, (mylen : Int) - (4 + len))⟩)
      else some (1, some ⟨byte / 8 % 2, (byte / 2 % 4).toNat, byte % 2, ⟨some len, some (3 + rc)⟩,
        none, some (3 + rc + len, (mylen : Int) - (2 + len))⟩) := by
  have hdata : 1 + rc + 2 = 3 + rc := by omega
  have hread : readMqttLenString buf (1 + rc) (1 + rc + mylen) =
      some (⟨some len, some (3 + rc)⟩, true, 3 + rc + len) := by
    rw [readMqttLenString, if_pos (by omega), hlen, hdata]
    simp [show 3 + rc + len ≤ 1 + rc + mylen by omega]
  have hend : ¬ 1 + rc + mylen < 3 + rc + len := by omega
  have hshort : ((1 + rc + mylen : Nat) : Int) - (3 + rc + len : Nat) = mylen - (2 + len) :=
    by omega
  have hwithId : ((1 + rc + mylen : Nat) : Int) - (5 + rc + len : Nat) = mylen - (4 + len) :=
    by omega
  have hplace : 3 + rc + len + 2 = 5 + rc + len := by omega
  simp only [mqttDeserializePublish, hbyte, Option.bind_eq_bind, Option.bind_some, htype, ne_eq,
    not_true, if_false, hdecode, hread, hend, or_self, Bool.true_eq_false, hshort, hwithId, hplace,
    Option.pure_def, Nat.cast_pos]
  split
  · cases readInt buf (3 + rc + len) <;> rfl
  · rfl

/-- The reader finds the message in the packet, whatever comes behind it. -/
theorem mqttDeserializePublish_packet {dup retained : UInt8} {qos : Nat} {packetid : UInt16}
    {topic payload : Text} (hqos : qos < 4) (htopic : topic.length < 65536)
    (hlength : remainingLength qos topic payload < 268435456) (behind : List UInt8) :
    ∃ fields, mqttDeserializePublish
        (publishPacketOf dup qos retained packetid topic payload ++ behind) =
        some (1, some fields) ∧
      fields.message (publishPacketOf dup qos retained packetid topic payload ++ behind) =
        some ⟨dup % 2, qos, retained % 2, topic, if 0 < qos then some packetid else none,
          payload⟩ := by
  rcases publishHeader_bits dup retained ⟨qos, hqos⟩ with ⟨htype, hdup, hbits, hretained⟩
  change _ = qos at hbits
  generalize hn : remainingLength qos topic payload = n at hlength
  generalize hid : (if 0 < qos then writeInt packetid.toNat else []) = id
  have hidLength : id.length = if 0 < qos then 2 else 0 := by
    rw [← hid]
    split <;> rfl
  rw [remainingLength, ← hidLength] at hn
  generalize hbody : writeInt topic.length ++ (topic ++ (id ++ (payload ++ behind))) = body
  have hbuf : publishPacketOf dup qos retained packetid topic payload ++ behind =
      (publishHeader dup qos retained :: mqttPacketEncode n) ++ body := by
    simp [publishPacketOf, remainingLength, ← hn, hid, hidLength, ← hbody]
  have hdecode := @mqttPacketDecode_encode 3 body n 0 1 0 (by omega) (by omega)
  rw [Nat.zero_add, Nat.zero_add, Nat.mul_one] at hdecode
  rw [hbuf]
  generalize hfront : publishHeader dup qos retained :: mqttPacketEncode n = front
  have hlength' : front.length = 1 + (mqttPacketEncode n).length := by
    rw [← hfront, List.length_cons, Nat.add_comm]
  have htopicAt := readInt_writeInt front htopic (topic ++ (id ++ (payload ++ behind)))
  have htake : (front ++ body).drop (3 + (mqttPacketEncode n).length) =
      topic ++ (id ++ (payload ++ behind)) := by
    rw [← hbody, ← List.append_assoc]
    exact List.drop_left' (by simp [hlength', writeInt_length]; omega)
  have hpayload : (front ++ body).drop
      (3 + (mqttPacketEncode n).length + topic.length + id.length) = payload ++ behind := by
    rw [← List.drop_drop, ← List.drop_drop, htake, List.drop_left, List.drop_left]
  have heq := @mqttDeserializePublish_eq (front ++ body) _ _ n topic.length (by rw [← hfront]; rfl)
    htype (by rw [← hfront]; exact hdecode) (by rw [← hlength', ← hbody]; exact htopicAt) (by omega)
  rw [hdup, hbits, hretained] at heq
  by_cases hpos : 0 < qos
  · rw [if_pos hpos] at hid hidLength
    have hpacketid := readInt_writeInt (front ++ (writeInt topic.length ++ topic)) packetid.toNat_lt
      (payload ++ behind)
    have hplace : 3 + (mqttPacketEncode n).length + topic.length =
        (front ++ (writeInt topic.length ++ topic)).length := by
      rw [List.length_append, List.length_append, writeInt_length, hlength']
      omega
    rw [hid, List.append_assoc, List.append_assoc, hbody, ← hplace] at hpacketid
    have hbehind : 3 + (mqttPacketEncode n).length + topic.length + 2 =
        5 + (mqttPacketEncode n).length + topic.length := by omega
    have hrest : (n : Int) - (4 + topic.length) = payload.length := by omega
    rw [hidLength, hbehind] at hpayload
    rw [if_pos hpos, hpacketid] at heq
    refine ⟨_, heq, ?_⟩
    simp [PublishFields.message, htake, hpayload, hpos, hrest]
  · rw [if_neg hpos] at hid hidLength heq
    rw [hidLength, Nat.add_zero] at hn hpayload
    refine ⟨_, heq, ?_⟩
    have hrest : (n : Int) - (2 + topic.length) = payload.length := by omega
    simp [PublishFields.message, htake, hpayload, hpos, hrest]

theorem mqttSerializePublishLength_of_lt {qos : Nat} {topic : CString} {payload : Text}
    (h : remainingLength qos topic.text payload < 268435456) :
    mqttSerializePublishLength qos topic payload.length =
      some (remainingLength qos topic.text payload : Int) := by
  unfold remainingLength at h ⊢
  have htopic : mqttStrlen topic = topic.text.length := toInt_of_lt (by omega)
  rw [mqttSerializePublishLength, htopic, addInt_of_lt (by decide) (by omega) (by omega),
    Option.bind_eq_bind, Option.bind_some, addInt_of_lt (by omega) (by omega) (by omega),
    Option.bind_some]
  by_cases hpos : 0 < qos
  · rw [if_pos hpos] at h
    rw [if_pos (by omega), addInt_of_lt (by omega) (by decide) (by omega), if_pos hpos]
    push_cast
    rfl
  · rw [if_neg (by omega), if_neg hpos]
    push_cast
    rfl

theorem mqttSerializePublish_packet {buf buf' : List UInt8} {dup retained : UInt8} {qos : Nat}
    {packetid : UInt16} {topic : CString} {payload : Text} {rc : Int}
    (hlength : remainingLength qos topic.text payload < 268435456)
    (h : mqttSerializePublish buf dup qos retained packetid topic payload payload.length =
      some (rc, buf')) (hrc : rc ≠ mqttPacketBufferTooShort) :
    ∃ behind, buf' = publishPacketOf dup qos retained packetid topic.text payload ++ behind := by
  have hsum : 2 + topic.text.length + payload.length ≤ remainingLength qos topic.text payload :=
    Nat.le_add_right _ _
  have htopic : mqttStrlen topic = topic.text.length := toInt_of_lt (by omega)
  have hwritten : writeMqttString topic = some (writeInt topic.text.length ++ topic.text) := by
    simp [writeMqttString, htopic, memcpyInt_all (show topic.text.length < 2147483648 by omega)]
  rw [mqttSerializePublish, mqttSerializePublishLength_of_lt hlength, Option.bind_eq_bind,
    Option.bind_some, hwritten, memcpyInt_all (by omega), Option.bind_eq_some_iff] at h
  rcases h with ⟨len, -, h⟩
  split at h
  · cases h
    exact absurd rfl hrc
  · rw [Option.bind_eq_bind, Option.bind_some, Option.bind_some,
      Option.ite_none_right_eq_some] at h
    rcases h with ⟨-, h⟩
    cases h
    refine ⟨_, congrArg (· ++ _) ?_⟩
    simp [publishPacketOf]

/-- A message that is written into a buffer is read from it again, with a topic and a remaining
length as the format has them. -/
theorem mqttPublish_roundTrip {buf buf' : List UInt8} {dup retained : UInt8} {qos : Nat}
    {packetid : UInt16} {topic : CString} {payload : Text} {rc : Int} (hqos : qos < 4)
    (htopic : topic.text.length < 65536)
    (hlength : remainingLength qos topic.text payload < 268435456)
    (h : mqttSerializePublish buf dup qos retained packetid topic payload payload.length =
      some (rc, buf')) (hrc : rc ≠ mqttPacketBufferTooShort) :
    ∃ fields, mqttDeserializePublish buf' = some (1, some fields) ∧
      fields.message buf' = some ⟨dup % 2, qos, retained % 2, topic.text,
        if 0 < qos then some packetid else none, payload⟩ := by
  rcases mqttSerializePublish_packet hlength h hrc with ⟨behind, rfl⟩
  exact mqttDeserializePublish_packet hqos htopic hlength behind

/-- A message of the second quality of service, in the buffer of `mqtt_publish`. -/
theorem mqttPublish_roundTrip_sensor : ∃ buf' fields,
    mqttSerializePublish (List.replicate 200 0) 1 2 0 7 ⟨[115, 49], by decide, by decide⟩ [53]
        ([53] : Text).length = some (9, buf') ∧
      mqttDeserializePublish buf' = some (1, some fields) ∧
      fields.message buf' = some ⟨1, 2, 0, [115, 49], some 7, [53]⟩ := by
  have h : mqttSerializePublish (List.replicate 200 0) 1 (2 : Nat) 0 7
      ⟨[115, 49], by decide, by decide⟩ [53] ([53] : Text).length =
      some (9, [60, 7, 0, 2, 115, 49, 0, 7, 53] ++ List.replicate 191 0) := by
    decide +kernel
  rcases mqttPublish_roundTrip (by decide) (by decide) (by decide) h (by decide) with
    ⟨fields, hread, hseen⟩
  exact ⟨_, fields, h, hread, hseen⟩

/-- The remaining length has room for the topic and, with a quality of service, for the packet
id. -/
def RoomForMessage (buf : List UInt8) : Prop :=
  ∃ byte rc mylen len, buf[0]? = some byte ∧
    mqttPacketDecode 0 1 0 (buf.drop 1) = some (rc, mylen) ∧ readInt buf (1 + rc) = some len ∧
    2 + len + (if 0 < (byte / 2 % 4).toNat then 2 else 0) ≤ mylen

theorem readMqttLenString_cases {pptr enddata curdata : Nat} {topicName : MqttLenString}
    {read : Bool} (h : readMqttLenString buf pptr enddata = some (topicName, read, curdata)) :
    (∃ len, readInt buf pptr = some len ∧ pptr + 2 + len ≤ enddata ∧ read = true ∧
        curdata = pptr + 2 + len) ∨
      (read = false ∧ ∀ len, readInt buf pptr = some len → enddata < pptr + 2 + len) := by
  rw [readMqttLenString] at h
  split at h
  · rcases Option.bind_eq_some_iff.mp h with ⟨len, hlen, h⟩
    split at h
    · rename_i hfits
      cases h
      exact .inl ⟨len, hlen, hfits, rfl, rfl⟩
    · rename_i hlong
      cases h
      refine .inr ⟨rfl, fun len' hlen' => ?_⟩
      cases hlen.symm.trans hlen'
      omega
  · cases h
    exact .inr ⟨rfl, fun len _ => by omega⟩

/-- A result of 1 does not say that there is a payload: it does so exactly with room for what comes
before the payload. -/
theorem payload_iff_roomForMessage {fields : PublishFields}
    (h : mqttDeserializePublish buf = some (1, some fields)) :
    (∃ place, ∃ payloadlen : Nat, fields.payload = some (place, (payloadlen : Int))) ↔
      RoomForMessage buf := by
  rcases Option.bind_eq_some_iff.mp h with ⟨byte, hbyte, h⟩
  split at h
  · cases h
  · rcases Option.bind_eq_some_iff.mp h with ⟨⟨rc, mylen⟩, hdecode, h⟩
    rcases Option.bind_eq_some_iff.mp h with ⟨⟨topicName, read, curdata⟩, hread, h⟩
    have hroom : RoomForMessage buf ↔ ∃ len, readInt buf (1 + rc) = some len ∧
        2 + len + (if 0 < (byte / 2 % 4).toNat then 2 else 0) ≤ mylen := by
      constructor
      · rintro ⟨byte', rc', mylen', len, hbyte', hdecode', hlen, hle⟩
        cases hbyte.symm.trans hbyte'
        cases hdecode.symm.trans hdecode'
        exact ⟨len, hlen, hle⟩
      · rintro ⟨len, hlen, hle⟩
        exact ⟨byte, rc, mylen, len, hbyte, hdecode, hlen, hle⟩
    rw [hroom]
    rcases readMqttLenString_cases hread with ⟨len, hlen, hfits, rfl, rfl⟩ | ⟨rfl, hlong⟩
    · dsimp only at h
      rw [if_neg (by simp; omega)] at h
      by_cases hpos : 0 < (byte / 2 % 4).toNat
      · rw [if_pos (by exact_mod_cast hpos)] at h
        rcases Option.bind_eq_some_iff.mp h with ⟨packetid, -, h⟩
        cases h
        simp only [hlen, if_pos hpos, Option.some.injEq, Prod.mk.injEq, exists_eq_left']
        constructor
        · rintro ⟨place, payloadlen, -, heq⟩
          omega
        · intro hle
          exact ⟨_, 1 + rc + mylen - (1 + rc + 2 + len + 2), rfl, by omega⟩
      · rw [if_neg (by exact_mod_cast hpos)] at h
        cases h
        simp only [hlen, if_neg hpos, Option.some.injEq, Prod.mk.injEq, exists_eq_left']
        constructor
        · rintro ⟨place, payloadlen, -, heq⟩
          omega
        · intro hle
          exact ⟨_, 1 + rc + mylen - (1 + rc + 2 + len), rfl, by omega⟩
    · dsimp only at h
      rw [if_pos (.inl rfl)] at h
      cases h
      constructor
      · rintro ⟨place, payloadlen, heq⟩
        cases heq
      · rintro ⟨len, hlen, hle⟩
        have := hlong len hlen
        omega

/-- With a remaining length that ends behind the topic the payload has the length -2. -/
theorem payload_iff_roomForMessage_negative :
    mqttDeserializePublish [50, 4, 0, 2, 115, 49, 0, 0] =
        some (1, some ⟨0, 1, 0, ⟨some 2, some 4⟩, some 0, some (8, -2)⟩) ∧
      ¬ RoomForMessage [50, 4, 0, 2, 115, 49, 0, 0] := by
  have h : mqttDeserializePublish [50, 4, 0, 2, 115, 49, 0, 0] =
      some (1, some ⟨0, 1, 0, ⟨some 2, some 4⟩, some 0, some (8, -2)⟩) := by
    decide
  refine ⟨h, fun hroom => ?_⟩
  rcases (payload_iff_roomForMessage h).mpr hroom with ⟨place, payloadlen, heq⟩
  simp only [Option.some.injEq, Prod.mk.injEq] at heq
  omega

end FactoryThing.Bridge
