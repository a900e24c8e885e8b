import FactoryThing.Bridge.Entries

/-!
# The configuration of the bridge

`load` and `make_group` (`mqtt/client-config.cpp`), without what they print. The file is given as
json-c parses it (`null` if it cannot), and the functions of json-c that convert a value are
parameters. Where a pointer that has not been set, or `NULL`, is read, nothing is said about what
the program does.
-/

namespace FactoryThing.Bridge

open FormattedText

/-- `json_object`, by its type. -/
inductive Json where
  | null
  | boolean (b : Bool)
  | double (bits : UInt64)
  | int (n : Int)
  | object (fields : List (Text × Json))
  | array (items : List Json)
  | string (bytes : List UInt8)

/-- `json_object_to_json_string`, `json_object_get_int` and `json_object_get_boolean`. -/
structure JsonC where
  toJsonString : Json → Text
  getInt : Json → Int
  getBoolean : Json → Bool

/-- `json_object_object_get_ex`. -/
def Json.get (key : Text) : Json → Option Json
  | .object fields => (fields.find? fun field => field.1 = key).map Prod.snd
  | _ => none

/-- How `load` comes to no good end: it returns -1, or its behaviour is undefined. -/
inductive Stop where
  | failed
  | undefined
  deriving DecidableEq

variable (c : JsonC)

/-- `json_object_get_string`, `NULL` for `null`. -/
def JsonC.getString : Json → Option Text
  | .null => none
  | .string bytes => some (upToNul bytes)
  | json => some (upToNul (c.toJsonString json))

/-- The text of a value for a function that reads it. -/
def JsonC.needString (json : Json) : Except Stop Text :=
  match c.getString json with
  | none => .error .undefined
  | some text => .ok text

def needSet {α : Type} : Option α → Except Stop α
  | none => .error .undefined
  | some a => .ok a

/-- `Node`, as it is read; `alias` is a word of Lean. -/
structure PartialNode where
  id : Option Text
  topic : Option Text
  aliasText : Option Text

/-- `Node`, once all its texts are set. -/
structure Node where
  id : Text
  topic : Text
  aliasText : Text
  deriving DecidableEq

/-- `Group`, as it is read. -/
structure PartialGroup where
  name : Option Text
  method : Option Text
  intervalUSec : Option Int
  topic : Option Text
  format : Option Text
  mqtt : Option Bool
  amqp : Option Bool
  tcp : Option Bool
  enable : Option Bool
  nodes : List (Nat × Node)

/-- `Group`, once everything that `load` prints is set. -/
structure Group where
  name : Text
  method : Text
  intervalUSec : Int
  topic : Option Text
  format : Option Text
  mqtt : Bool
  amqp : Option Bool
  tcp : Bool
  enable : Option Bool
  nodes : List (Nat × Node)
  deriving DecidableEq

/-- `strncmp(key, name, strlen(key)) == 0`. -/
def isKey (key : Text) (name : String) : Bool := key.isPrefixOf (ascii name)

/-- The loop over the fields of a node (`:193-205`). -/
def makeNode : List (Text × Json) → PartialNode → Except Stop PartialNode
  | [], n => .ok n
  | (field, v) :: fields, n =>
      if isKey field "id" then do
        let text ← c.needString v
        makeNode fields { n with id := some text }
      else if isKey field "topic" then do
        let text ← c.needString v
        makeNode fields { n with topic := some text }
      else if isKey field "alias" then do
        let text ← c.needString v
        if text.length = 0 then
          let topic ← needSet n.topic
          makeNode fields { n with aliasText := some topic }
        else makeNode fields { n with aliasText := some text }
      else makeNode fields n

/-- `std::map::insert`: what is there stays. -/
def insertNew {α : Type} (l : List (Nat × α)) (i : Nat) (a : α) : List (Nat × α) :=
  if l.any fun entry => entry.1 = i then l else l ++ [(i, a)]

/-- The loop over the array of nodes (`:186-216`) from the index `i` on. The node is not reset, so
that a field that is left out keeps the text of the node before. -/
def makeNodes : Nat → List Json → PartialNode → List (Nat × Node) → Except Stop (List (Nat × Node))
  | _, [], _, nodes => .ok nodes
  | i, item :: items, n, nodes => do
      let n ← match item with
        | .object fields => makeNode c fields n
        | _ => .ok n
      let id ← needSet n.id
      let topic ← needSet n.topic
      let aliasText ← needSet n.aliasText
      makeNodes (i + 1) items n (insertNew nodes i ⟨id, topic, aliasText⟩)

/-- `make_group` (`:149-230`). A field with another name ends it, and what has been read stays. -/
def makeGroup : List (Text × Json) → PartialGroup → Except Stop PartialGroup
  | [], g => .ok g
  | (key, val) :: fields, g =>
      if isKey key "name" then do
        let text ← c.needString val
        makeGroup fields { g with name := some text }
      else if isKey key "method" then do
        let text ← c.needString val
        makeGroup fields { g with method := some text }
      else if isKey key "intervalUSec" then
        makeGroup fields { g with intervalUSec := some (c.getInt val) }
      else if isKey key "topic" then do
        let text ← c.needString val
        makeGroup fields { g with topic := some text }
      else if isKey key "format" then do
        let text ← c.needString val
        makeGroup fields { g with format := some text }
      else if isKey key "mqtt" then makeGroup fields { g with mqtt := some (c.getBoolean val) }
      else if isKey key "amqp" then makeGroup fields { g with amqp := some (c.getBoolean val) }
      else if isKey key "tcp" then makeGroup fields { g with tcp := some (c.getBoolean val) }
      else if isKey key "enable" then makeGroup fields { g with enable := some (c.getBoolean val) }
      else if isKey key "nodes" then
        match val with
        | .array items => do
            let nodes ← makeNodes c 0 items ⟨none, none, none⟩ g.nodes
            makeGroup fields { g with nodes := nodes }
        | _ => makeGroup fields g
      else .ok g

/-- The loop over the array of groups (`:418-437`) from the index `i` on. -/
def makeGroups : Nat → List Json → List (Nat × PartialGroup) →
    Except Stop (List (Nat × PartialGroup))
  | _, [], groups => .ok groups
  | i, .object fields :: items, groups => do
      let g ← makeGroup c fields ⟨none, none, none, none, none, none, none, none, none, []⟩
      makeGroups (i + 1) items (insertNew groups i g)
  | i, _ :: items, groups => makeGroups (i + 1) items groups

/-- What the end of `load` prints of a group has to be set. -/
def PartialGroup.complete (g : PartialGroup) : Except Stop Group := do
  let name ← needSet g.name
  let method ← needSet g.method
  let intervalUSec ← needSet g.intervalUSec
  let mqtt ← needSet g.mqtt
  let tcp ← needSet g.tcp
  return ⟨name, method, intervalUSec, g.topic, g.format, mqtt, g.amqp, tcp, g.enable, g.nodes⟩

/-- The loop at the end of `load` (`:442-452`). -/
def completeGroups : List (Nat × PartialGroup) → Except Stop (List (Nat × Group))
  | [] => .ok []
  | (i, g) :: groups => do
      let g ← g.complete
      let groups ← completeGroups groups
      return (i, g) :: groups

/-- A setting that has to be there: a text for a field, or a number or truth value. -/
inductive Setting where
  | text (field : Buffer)
  | number
  | flag
  deriving DecidableEq

/-- The settings of an object of a section, in the order in which they are read. -/
structure SettingsObject where
  key : String
  settings : List (String × Setting)

/-- `device-configuration` (`:275-286`). -/
def deviceConfiguration : List SettingsObject := [⟨"Device", [("deviceID", .text .deviceID)]⟩]

/-- `server-configuration` (`:288-405`). -/
def serverConfiguration : List SettingsObject :=
  [⟨"opcuaServer", [("EndpointURL", .text .uaServerAddress), ("publishIntervalUs", .number),
      ("asycRequestSupported", .flag), ("method", .text .method)]⟩,
    ⟨"mqttBrocker", [("enable", .flag), ("ip", .text .mqttBrockerIP), ("port", .number),
      ("topicBase", .text .topicBase)]⟩,
    ⟨"amqpRabbit", [("enable", .flag), ("ip", .text .amqpIP), ("port", .number),
      ("topicBase", .text .amqpTopicBase)]⟩,
    ⟨"tcpSever", [("ip", .text .tcpBrockerIP), ("port", .number), ("sampleIntervalUs", .number),
      ("singleshot", .flag), ("enable", .flag)]⟩]

/-- The texts of `g_config` and the accesses so far. -/
structure Settings where
  texts : Buffer → Text
  accesses : List Access

/-- `strcpy` into a field of the settings. -/
def Settings.copy (s : Settings) (buffer : Buffer) (text : Text) : Settings :=
  ⟨Function.update s.texts buffer text, s.accesses ++ [.write buffer text]⟩

/-- The settings of one object, key by key. -/
def loadSettings (object : Json) : List (String × Setting) → Settings → Except Stop Settings
  | [], s => .ok s
  | (key, setting) :: settings, s =>
      match object.get (ascii key) with
      | none => .error .failed
      | some v =>
          match setting with
          | .text field => do
              let text ← c.needString v
              loadSettings object settings (s.copy field text)
          | .number | .flag => loadSettings object settings s

/-- The objects of a section; a missing one stops the program. -/
def loadObjects (json : Json) : List SettingsObject → Settings → Except Stop Settings
  | [], s => .ok s
  | o :: objects, s =>
      match json.get (ascii o.key) with
      | none => .error .failed
      | some object => do
          let s ← loadSettings c object o.settings s
          loadObjects json objects s

/-- A section of the file, if it is there. -/
def loadSection (json : Json) (key : String) (objects : List SettingsObject) (s : Settings) :
    Except Stop Settings :=
  match json.get (ascii key) with
  | none => .ok s
  | some o => loadObjects c o objects s

def folderOf (exe : Text) : Text := (exe.reverse.dropWhile (· ≠ 47)).tail.reverse

/-- The name of the file (`:236-252`); `fn` is the text of `configFile`. -/
def resolveFile (exe fn : Text) (s : Settings) : Settings :=
  let folder := folderOf exe
  let s := s.copy .configFolder folder
  if fn.take 1 = ascii "/" then s.copy .configFn fn
  else
    let configFn := folder ++ ascii "/" ++ fn
    (s.copy .configFn configFn).copy .configFile configFn

/-- What `load` leaves if it returns `UA_STATUSCODE_GOOD`. -/
structure Configuration extends Settings where
  groups : List (Nat × Group)

/-- The groups of `node-map` (`:408-439`). -/
def loadNodeMap (json : Json) : Except Stop (List (Nat × PartialGroup)) :=
  match json.get (ascii "node-map") with
  | none => .ok []
  | some (.array items) => makeGroups c 0 items []
  | some _ => .error .undefined

/-- `load` (`:232-456`): `exe` is the path of the program, `file` what is in the file if it can be
opened. -/
def load (exe fn : Text) (file : Option Json) : Except Stop Configuration :=
  match file with
  | none => .error .failed
  | some json => do
      let s := resolveFile exe fn
        ⟨Function.update (fun _ => []) .configFile fn, []⟩
      let s ← loadSection c json "device-configuration" deviceConfiguration s
      let s ← loadSection c json "server-configuration" serverConfiguration s
      let groups ← loadNodeMap c json
      let groups ← completeGroups groups
      return ⟨s, groups⟩

end FactoryThing.Bridge
