import FactoryThing.Bridge.Configuration

/-!
# Events and poll rounds

`callback` and a round of `opcua_poll_group` (`mqtt/client-monitoring.cpp`): what they publish and
which buffers they write. The time is given; a JSON object stands for the text json-c makes of it.
-/

namespace FactoryThing.Bridge

open FormattedText

/-! ## What is published -/

/-- The fields of a JSON object in their order. -/
abbrev Fields := List (Text × JsonScalar)

/-- `json_object_object_add`. -/
def addField (fields : Fields) (key : Text) (value : JsonScalar) : Fields :=
  if key ∈ fields.map Prod.fst then
    fields.map fun field => if field.1 = key then (key, value) else field
  else fields ++ [(key, value)]

/-- `mqtt_publish` and `tcp_publish`. -/
inductive Transport where
  | mqtt
  | tcp
  deriving DecidableEq

inductive Mode where
  | poll
  | event
  deriving DecidableEq

/-- A JSON object with what is added to its text, or a text. -/
inductive Contents where
  | json (fields : Fields) (suffix : Text)
  | text (text : Text)
  deriving DecidableEq

/-- A call of `mqtt_publish` or `tcp_publish`. -/
structure Publication where
  transport : Transport
  mode : Mode
  topic : Text
  contents : Contents
  deriving DecidableEq

/-- The accesses of a call, and what it publishes. -/
structure Outcome where
  accesses : List Access
  published : List Publication
  deriving DecidableEq

/-- `enumPayloadFormat`. -/
inductive PayloadFormat where
  | json
  | keyVal
  deriving DecidableEq

/-- `getPayloadFormat`; anything else is JSON. -/
def getPayloadFormat (format : Text) : PayloadFormat :=
  if isKey format "json" then .json else if isKey format "kv" then .keyVal else .json

/-- The transports a group uses, `mqtt` first. -/
def Group.transports (g : Group) : List Transport :=
  (if g.mqtt then [.mqtt] else []) ++ if g.tcp then [.tcp] else []

/-- A text that may not have been set, and the access that reads it then. -/
def readText : Option Text → Text × List Access
  | none => ([], [.unset])
  | some text => (text, [])

def groupTopic (texts : Buffer → Text) (topic : Text) : Text :=
  texts .topicBase ++ ascii "/" ++ texts .deviceID ++ ascii "/" ++ topic

/-- What a group publishes to each of its transports. -/
def publishTo (g : Group) (mode : Mode) (topic format : Text) (fields : Fields)
    (suffix : Transport → Text) (keyVal : Text) : List Publication :=
  g.transports.map fun transport =>
    ⟨transport, mode, topic,
      match getPayloadFormat format with
      | .json => .json fields (suffix transport)
      | .keyVal => .text keyVal⟩

/-- `callback` (`:64-143`) at the time `t`; `data` is the value, if it has one. A value without
elements is read like one that has not been set. -/
def callback (texts : Buffer → Text) (g : Group) (d : Node) (data : Option Variant) (t : Int64) :
    Outcome :=
  match data with
  | none => ⟨[], []⟩
  | some val =>
      match val.elements with
      | [] => ⟨[.unset], []⟩
      | scalar :: _ =>
          let entry := (callbackEntry scalar).getD ⟨none, [], []⟩
          let (topic, reading) := readText g.topic
          let topic := groupTopic texts topic ++ ascii "/" ++ d.topic
          let accesses := entry.accesses ++ reading ++ [.write .eventTopic topic]
          match entry.json with
          | none => ⟨accesses, []⟩
          | some json =>
              let payload := ascii "time=" ++ signedDecimal t.toInt ++ ascii ", " ++ d.aliasText ++
                ascii "=" ++ entry.text
              let fields := addField (addField [] d.aliasText json) (ascii "time") (.int t.toInt)
              let (format, reading) := readText g.format
              ⟨accesses ++ [.write .eventPayload payload] ++ reading,
                publishTo g .event topic format fields (fun _ => []) payload⟩

/-- The JSON object, the texts of the key-value format and the accesses so far. -/
structure Round where
  fields : Fields
  keyVals : List Text
  accesses : List Access

/-- A node of a round (`:204-325`); `read` is what is read, if that succeeds. -/
def pollNode (d : Node) (read : Option Variant) (r : Round) : Round :=
  match read with
  | none => r
  | some val =>
      match val.elements with
      | [] => { r with accesses := r.accesses ++ [.unset] }
      | scalar :: _ =>
          match pollEntry scalar with
          | none => r
          | some entry =>
              let keyVal := d.aliasText ++ ascii "=" ++ entry.text
              ⟨match entry.json with
                | none => r.fields
                | some json => addField r.fields d.aliasText json,
                r.keyVals ++ [keyVal],
                r.accesses ++ entry.accesses ++ [.write .pollKeyValue keyVal]⟩

/-- The loop over the nodes of a group. -/
def pollNodes (reads : Nat → Option Variant) : List (Nat × Node) → Round → Round
  | [], r => r
  | (i, d) :: nodes, r => pollNodes reads nodes (pollNode d (reads i) r)

/-- The texts with `", "` between them. -/
def joined (texts : List Text) : Text := (texts.intersperse (ascii ", ")).flatten

/-- A line break behind the JSON text for TCP (`:358-361`). -/
def lineBreak : Transport → Text
  | .mqtt => []
  | .tcp => [10]

/-- A round of `opcua_poll_group` (`:200-389`) at the time `t`. -/
def opcuaPollGroup (texts : Buffer → Text) (g : Group) (reads : Nat → Option Variant) (t : Int64) :
    Outcome :=
  let r := pollNodes reads g.nodes ⟨[], [], []⟩
  let (topic, reading) := readText g.topic
  let topic := groupTopic texts topic
  let accesses := r.accesses ++ reading ++ [.write .pollTopic topic]
  if r.fields = [] then ⟨accesses, []⟩
  else
    let fields := addField r.fields (ascii "time") (.int t.toInt)
    let time := ascii "time=" ++ decimal t.toUInt64.toNat
    let (format, reading) := readText g.format
    ⟨accesses ++ [.write .pollTime time] ++ reading,
      publishTo g .poll topic format fields lineBreak (joined (r.keyVals ++ [time]))⟩

/-- What happens while the bridge runs: a value is reported for a node, or a group is polled. -/
inductive Happening where
  | event (g : Group) (d : Node) (data : Option Variant) (t : Int64)
  | round (g : Group) (reads : Nat → Option Variant) (t : Int64)

def Happening.outcome (texts : Buffer → Text) : Happening → Outcome
  | .event g d data t => callback texts g d data t
  | .round g reads t => opcuaPollGroup texts g reads t

end FactoryThing.Bridge
