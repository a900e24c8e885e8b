import FactoryThing.Lib.FormattedText

/-!
# Values and what the MQTT bridge makes of them

The buffers of `mqtt/client-config.h` and `mqtt/client-monitoring.cpp`, the accesses to memory that
are not bounded by the program, and the two type switches over a value that has been read. A write
that goes beyond its buffer is noted and otherwise has no effect, as if the memory behind the buffer
were unused.
-/

namespace FactoryThing.Bridge

open FormattedText

/-- The buffers: the fields of `UAMQ_Configuration`, the name of the file in `load`, and those of
`callback` and `opcua_poll_group`. -/
inductive Buffer where
  | configFile
  | configFolder
  | deviceID
  | uaServerAddress
  | method
  | mqttBrockerIP
  | topicBase
  | tcpBrockerIP
  | amqpIP
  | amqpTopicBase
  | configFn
  | eventTopic
  | eventPayload
  | eventValue
  | pollTopic
  | pollValue
  | pollKeyValue
  | pollTime
  deriving DecidableEq

/-- The sizes of the arrays in the source. -/
def Buffer.size : Buffer → Nat
  | .configFile => 128
  | .configFolder => 128
  | .deviceID => 64
  | .uaServerAddress => 128
  | .method => 32
  | .mqttBrockerIP => 128
  | .topicBase => 32
  | .tcpBrockerIP => 128
  | .amqpIP => 128
  | .amqpTopicBase => 32
  | .configFn => 256
  | .eventTopic => 64
  | .eventPayload => 256
  | .eventValue => 32
  | .pollTopic => 64
  | .pollValue => 512
  | .pollKeyValue => 32
  | .pollTime => 32

/-- An access: a text and its NUL written to a buffer, the bytes of a `UA_String` and of what is
behind it read, or something read that has not been set. -/
inductive Access where
  | write (buffer : Buffer) (text : Text)
  | read (length : Nat) (bytes : Nat)
  | unset
  deriving DecidableEq

def Access.Inside : Access → Prop
  | .write buffer text => text.length < buffer.size
  | .read length bytes => bytes ≤ length
  | .unset => False

instance : DecidablePred Access.Inside
  | .write _ _ => inferInstanceAs (Decidable (_ < _))
  | .read _ _ => inferInstanceAs (Decidable (_ ≤ _))
  | .unset => inferInstanceAs (Decidable False)

/-- A `UA_String` as it is received, and what is in memory behind it up to the next NUL. -/
structure ReceivedString where
  bytes : List UInt8
  behind : Text
  deriving DecidableEq

/-- What `%s` prints of its data. -/
def ReceivedString.printed (s : ReceivedString) : Text := upToNul (s.bytes ++ upToNul s.behind)

/-- What `%s` reads: the text and the NUL that ends it. -/
def ReceivedString.printing (s : ReceivedString) : Access :=
  .read s.bytes.length (s.printed.length + 1)

/-- The value of a scalar, by its type; `other` for the types without a case of their own. -/
inductive Scalar where
  | boolean (b : Bool)
  | sByte (n : Int8)
  | byte (n : UInt8)
  | int16 (n : Int16)
  | uint16 (n : UInt16)
  | int32 (n : Int32)
  | uint32 (n : UInt32)
  | int64 (n : Int64)
  | uint64 (n : UInt64)
  | float (bits : UInt32)
  | double (bits : UInt64)
  | string (s : ReceivedString)
  | other
  deriving DecidableEq

/-- `UA_Variant`: its elements, one of them for a scalar and none for an empty variant. -/
structure Variant where
  elements : List Scalar
  deriving DecidableEq

/-- The value that is given to json-c, which prints the number or the text it is given. -/
inductive JsonScalar where
  | boolean (b : Bool)
  | int (n : Int)
  | double (value : FloatValue)
  | string (text : Text)
  deriving DecidableEq

/-- What a type switch makes of a value: the JSON value, the text in its buffer, and the
accesses. -/
structure Entry where
  json : Option JsonScalar
  text : Text
  accesses : List Access
  deriving DecidableEq

/-- A number or a truth value, whose text goes to the buffer. -/
def Entry.plain (value : Buffer) (json : JsonScalar) (text : Text) : Entry :=
  ⟨some json, text, [.write value text]⟩

/-- The cases of a switch: the buffer for the text, and how it prints 64 unsigned bits. There is
none for the types that are not supported. -/
def switchEntry (value : Buffer) (uint64Text : UInt64 → Text) : Scalar → Option Entry
  | .boolean b => some (.plain value (.boolean b) (if b then ascii "true" else ascii "false"))
  | .sByte n => some (.plain value (.int n.toInt) (signedDecimal n.toInt))
  | .byte n => some (.plain value (.int n.toNat) (signedDecimal n.toNat))
  | .int16 n => some (.plain value (.int n.toInt) (signedDecimal n.toInt))
  | .uint16 n => some (.plain value (.int n.toNat) (signedDecimal n.toNat))
  | .int32 n => some (.plain value (.int n.toInt) (signedDecimal n.toInt))
  -- json_object_new_int and %d take an int
  | .uint32 n => some (.plain value (.int (wrap 32 n.toNat)) (signedDecimal (wrap 32 n.toNat)))
  | .int64 n => some (.plain value (.int n.toInt) (signedDecimal n.toInt))
  -- json_object_new_int64 takes an int64_t
  | .uint64 n => some (.plain value (.int (wrap 64 n.toNat)) (uint64Text n))
  | .float bits =>
      let v := FloatValue.ofBits 8 23 bits.toNat
      some (.plain value (.double v) (fixedPoint v))
  | .double bits =>
      let v := FloatValue.ofBits 11 52 bits.toNat
      some (.plain value (.double v) (fixedPoint v))
  | .string s =>
      if s.bytes.length ≠ 0 then
        let quoted := ascii "\"" ++ s.printed ++ ascii "\""
        some ⟨some (.string s.printed), quoted,
          [s.printing, .write value s.printed, s.printing, .write value quoted]⟩
      else some ⟨none, [], []⟩
  | .other => none

/-- The switch of `callback` (`:83-106`). -/
def callbackEntry : Scalar → Option Entry :=
  switchEntry .eventValue fun n => decimal n.toNat

/-- The switch of `opcua_poll_group` (`:250-321`). -/
def pollEntry : Scalar → Option Entry :=
  switchEntry .pollValue fun n => signedDecimal (wrap 64 n.toNat)

end FactoryThing.Bridge
