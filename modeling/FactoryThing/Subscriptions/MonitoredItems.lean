import FactoryThing.AddressSpace.Nodes
import FactoryThing.Subscriptions.Sampling
import FactoryThing.Variants.Ranges

/-!
# The services for monitored items

Monitored items are created, modified and set to a monitoring mode, and a repeated job reads what
they monitor (`src/server/ua_services_subscription.c:144-396`,
`src/server/ua_subscription.c:203-267`). What only these services and the job look at is kept beside
the session, under the address of the monitored item. A value that has been read carries the
ReadValueId it has been read with. What the Read service finds is an answer of the environment, and
so is every allocation; the read may fail as a copy of a range does.
-/

namespace FactoryThing.Subscriptions

open AddressSpace Variants

/-! ## What is read -/

/-- `UA_ReadValueId`. -/
structure ReadValueId where
  nodeId : NodeKey
  attributeId : UInt32
  indexRange : List UInt8
  dataEncoding : QualifiedName
  deriving DecidableEq

instance : Inhabited ReadValueId := ⟨⟨nullId, 0, [], ⟨0, []⟩⟩⟩

def attributeIdValue : UInt32 := 13

/-- `UA_TIMESTAMPSTORETURN_NEITHER`, the last of them. -/
def timestampsToReturnNeither : UInt32 := 3

def monitoringModeReporting : UInt32 := 2

/-- What has been read, and with which ReadValueId. -/
structure Sample (W : Type) where
  readValueId : ReadValueId
  content : W
  deriving DecidableEq

instance {W : Type} [Inhabited W] : Inhabited (Sample W) := ⟨⟨default, default⟩⟩

variable {V W : Type}

/-- Samples are encoded without the ReadValueId. -/
def Encoder.ofSamples (enc : Encoder W) : Encoder (Sample W) where
  calcSizeBinary value := enc.calcSizeBinary (value.map Sample.content)
  encodeBinary value := enc.encodeBinary (value.map Sample.content)

/-- `Service_Read_single` for the timestamps to return and a ReadValueId. -/
abbrev Reader (W : Type) := UInt32 → ReadValueId → Except RangeFault (DataValue W)

/-- The settings of a `UA_MonitoredItem` (`ua_subscription.h:32-56`) that `MonitoredItem` leaves
out. The sampling interval is only passed on to the timer. -/
structure ItemSettings where
  timestampsToReturn : UInt32
  monitoringMode : UInt32
  monitoredNodeId : NodeKey
  attributeID : UInt32
  indexRange : List UInt8
  sampleJobIsRegistered : Bool

/-- What the sample job of the monitored item reads (`ua_subscription.c:215-219`). -/
def ItemSettings.readValueId (settings : ItemSettings) : ReadValueId :=
  ⟨settings.monitoredNodeId, settings.attributeID, settings.indexRange, ⟨0, []⟩⟩

/-- A session with the settings of its monitored items. -/
structure Monitored (W : Type) where
  session : Server (Sample W)
  settings : Nat → ItemSettings

/-- A new session has no monitored items. -/
def Monitored.init (timeout clock : Int) : Monitored W where
  session := Server.init timeout clock
  settings _ := ⟨0, 0, nullId, 0, [], false⟩

/-- The monitored item at an address, in the subscription at an address. -/
def itemAt (sv : Server V) (a m : Nat) : Option (MonitoredItem V) :=
  (subscriptionAt sv a).bind fun sub => Keyed.find MonitoredItem.addr sub.monitoredItems m

/-- A write to the settings of the monitored item at an address. -/
def Monitored.setSettings (s : Monitored W) (m : Nat) (settings : ItemSettings) : Monitored W :=
  { s with settings := Function.update s.settings m settings }

/-- A write to the monitored item at an address. -/
def Server.modifyItem (sv : Server V) (a m : Nat) (f : MonitoredItem V → MonitoredItem V) :
    Server V :=
  sv.modifySubscription a fun sub =>
    { sub with monitoredItems := Keyed.modify MonitoredItem.addr f m sub.monitoredItems }

/-- `UA_MonitoredItemCreateRequest`. -/
structure MonitoredItemCreateRequest where
  itemToMonitor : ReadValueId
  monitoringMode : UInt32
  requestedParameters : MonitoringParameters

/-- What the environment answers while one monitored item is created: the status of the example
read, if it has one, the allocations and copies, whether the sample job can be registered, and the
read of the first sample. -/
structure CreateAnswers (W : Type) where
  exampleRead : Except RangeFault (Option StatusCode)
  newMon : Bool
  nodeIdCopied : Bool
  registered : Bool
  read : Reader W
  sampleAllocs : SampleAllocs
  rangeCopied : Bool

/-- `UA_MonitoredItemCreateResult`. -/
structure MonitoredItemCreateResult where
  statusCode : StatusCode
  monitoredItemId : UInt32
  revisedQueueSize : UInt32
  deriving DecidableEq

structure MonitoredItemModifyRequest where
  monitoredItemId : UInt32
  requestedParameters : MonitoringParameters

structure MonitoredItemModifyResult where
  statusCode : StatusCode
  revisedQueueSize : UInt32
  deriving DecidableEq

/-- What can be seen of a step: the outputs of the session, every monitored item as a sample of it
leaves it, and the results of the services. -/
inductive Observation (W : Type) where
  | session (output : Output (Sample W))
  | sampled (sub : Nat) (mon : MonitoredItem (Sample W))
  | created (results : List MonitoredItemCreateResult)
  | modified (results : List MonitoredItemModifyResult)
  | modeSet (results : List StatusCode)
  | fault (serviceResult : StatusCode)

/-- Where the program stops: in the session, in the Read service, or at the removal of an item from
a list it is not in. -/
inductive ItemBreakdown where
  | session (breakdown : Breakdown)
  | read (fault : RangeFault)
  | unlinkedItem
  deriving DecidableEq

abbrev Outcome (W : Type) := Except ItemBreakdown (Monitored W × List (Observation W))

variable (config : Config) (enc : Encoder W) (s : Monitored W)

/-- What is read for the monitored item at an address. -/
def ItemSettings.readValue (settings : ItemSettings) (read : Reader W) :
    Except RangeFault (DataValue (Sample W)) :=
  (read settings.timestampsToReturn settings.readValueId).map
    (DataValue.map (Sample.mk settings.readValueId))

/-- `UA_MoniteredItem_SampleCallback` (`ua_subscription.c:204-243`). -/
def sampleItem (a m : Nat) (alloc : SampleAllocs) (read : Reader W) : Outcome W :=
  match (s.settings m).readValue read with
  | .error fault => .error (.read fault)
  | .ok value =>
      match sampleCallback s.session enc.ofSamples a m alloc value with
      | .error breakdown => .error (.session breakdown)
      | .ok (session, outputs) =>
          .ok ({ s with session := session },
            outputs.map Observation.session ++
              (itemAt session a m).toList.map (Observation.sampled a))

/-- The sample job of a monitored item, which goes with the item. -/
def sampleJob (a m : Nat) (alloc : SampleAllocs) (read : Reader W) : Outcome W :=
  match itemAt s.session a m with
  | none => .ok (s, [])
  | some _ =>
      if (s.settings m).sampleJobIsRegistered then sampleItem enc s a m alloc read else .ok (s, [])

/-! ## Services -/

/-- The parameters in `setMonitoredItemSettings` (`:154-187`). -/
def MonitoredItem.withParameters (params : MonitoringParameters) (mon : MonitoredItem V) :
    MonitoredItem V :=
  { mon with
    clientHandle := params.clientHandle
    trigger := params.trigger
    maxQueueSize := config.queueSizeLimits.setWithBounds params.queueSize
    discardOldest := params.discardOldest }

/-- `setMonitoredItemSettings` (`:144-192`) of a monitored item in the list. -/
def setMonitoredItemSettings (a m : Nat) (monitoringMode : UInt32) (params : MonitoringParameters)
    (registered : Bool) : Monitored W :=
  { s with session := s.session.modifyItem a m (MonitoredItem.withParameters config params)
    }.setSettings m
    { s.settings m with
      monitoringMode := monitoringMode
      sampleJobIsRegistered := monitoringMode == monitoringModeReporting && registered }

/-- `"Default Binary"`. -/
def binaryEncoding : List UInt8 := [68, 101, 102, 97, 117, 108, 116, 32, 66, 105, 110, 97, 114, 121]

/-- The checks of `Service_CreateMonitoredItems_single` (`:201-229`). -/
def checkItemToMonitor (itemToMonitor : ReadValueId) (status : Option StatusCode) : StatusCode :=
  let encoding := itemToMonitor.dataEncoding
  match status.filter fun (status : StatusCode) =>
      status >>> 30 > 1 ∧ status ≠ StatusCode.badResourceUnavailable ∧
        status ≠ StatusCode.badCommunicationError ∧
        status ≠ StatusCode.badWaitingForInitialData with
  | some status => status
  | none =>
      if encoding.name.length > 0 ∧
          (encoding.name ≠ binaryEncoding ∨ encoding.namespaceIndex ≠ 0) then
        StatusCode.badDataEncodingUnsupported
      else if itemToMonitor.attributeId ≠ attributeIdValue ∧ encoding.name.length > 0 then
        StatusCode.badDataEncodingInvalid
      else StatusCode.good

/-- The settings of a new monitored item (`:246-251`). Its index range is not there yet. -/
def newSettings (timestampsToReturn : UInt32) (request : MonitoredItemCreateRequest)
    (registered : Bool) : ItemSettings where
  timestampsToReturn := timestampsToReturn
  monitoringMode := request.monitoringMode
  monitoredNodeId := request.itemToMonitor.nodeId
  attributeID := request.itemToMonitor.attributeId
  indexRange := []
  sampleJobIsRegistered := request.monitoringMode == monitoringModeReporting && registered

/-- The new monitored item is put in front of the others (`:252`). -/
def addItem (a : Nat) (timestampsToReturn : UInt32) (request : MonitoredItemCreateRequest)
    (registered : Bool) : Monitored W :=
  { s with
    session := { s.session with nextAddr := s.session.nextAddr + 1 }.modifySubscription a
      (Subscription.addMonitoredItem config request.requestedParameters s.session.nextAddr)
        }.setSettings
    s.session.nextAddr (newSettings timestampsToReturn request registered)

/-- `UA_String_copy` of the index range at the end (`:259`). -/
def Monitored.setIndexRange (m : Nat) (indexRange : List UInt8) : Monitored W :=
  s.setSettings m { s.settings m with indexRange := indexRange }

/-- `Service_CreateMonitoredItems_single` (`:197-264`). -/
def serviceCreateMonitoredItemsSingle (a : Nat) (timestampsToReturn : UInt32)
    (request : MonitoredItemCreateRequest) (answers : CreateAnswers W) :
    Except ItemBreakdown (Monitored W × MonitoredItemCreateResult × List (Observation W)) :=
  match answers.exampleRead with
  | .error fault => .error (.read fault)
  | .ok status =>
      let statusCode := checkItemToMonitor request.itemToMonitor status
      if statusCode ≠ StatusCode.good then .ok (s, ⟨statusCode, 0, 0⟩, [])
      else if ¬ answers.newMon then .ok (s, ⟨StatusCode.badOutOfMemory, 0, 0⟩, [])
      -- MonitoredItem_delete takes the item out of a list it has not been put into
      else if ¬ answers.nodeIdCopied then .error .unlinkedItem
      else
        let m := s.session.nextAddr
        let s := addItem config s a timestampsToReturn request answers.registered
        let first : Outcome W :=
          if request.monitoringMode = monitoringModeReporting then
            sampleItem enc s a m answers.sampleAllocs answers.read
          else .ok (s, [])
        match first with
        | .error breakdown => .error breakdown
        | .ok (s, outputs) =>
            let item := itemAt s.session a m
            let result : MonitoredItemCreateResult :=
              { statusCode := StatusCode.good
                monitoredItemId := (item.map MonitoredItem.itemId).getD 0
                revisedQueueSize := (item.map MonitoredItem.maxQueueSize).getD 0 }
            let indexRange := if answers.rangeCopied then request.itemToMonitor.indexRange else []
            .ok (s.setIndexRange m indexRange, result, outputs)

/-- The items of a CreateMonitoredItems one after the other (`:302-304`). -/
def createItems (a : Nat) (timestampsToReturn : UInt32) :
    Monitored W → List (MonitoredItemCreateRequest × CreateAnswers W) →
      Except ItemBreakdown (Monitored W × List MonitoredItemCreateResult × List (Observation W))
  | s, [] => .ok (s, [], [])
  | s, (request, answers) :: items =>
      match serviceCreateMonitoredItemsSingle config enc s a timestampsToReturn request answers with
      | .error breakdown => .error breakdown
      | .ok (s, result, outputs) =>
          match createItems a timestampsToReturn s items with
          | .error breakdown => .error breakdown
          | .ok (s, results, outputs') => .ok (s, result :: results, outputs ++ outputs')

/-- What `Service_CreateMonitoredItems` and `Service_ModifyMonitoredItems` do before they come to
the items (`:273-300`, `:327-353`). -/
def forItems (subscriptionId timestampsToReturn : UInt32) (size : Nat) (alloc : Bool)
    (serve : Nat → Monitored W → Outcome W) : Outcome W :=
  if timestampsToReturn > timestampsToReturnNeither then
    .ok (s, [.fault StatusCode.badTimestampsToReturnInvalid])
  else
    match getSubscriptionByID s.session subscriptionId with
    | none => .ok (s, [.fault StatusCode.badSubscriptionIdInvalid])
    | some sub =>
        let s := { s with session := s.session.modifySubscription sub.addr fun sub =>
          { sub with currentLifetimeCount := 0 } }
        if size = 0 then .ok (s, [.fault StatusCode.badNothingToDo])
        else if ¬ alloc then .ok (s, [.fault StatusCode.badOutOfMemory])
        else serve sub.addr s

/-- `Service_CreateMonitoredItems` (`:266-305`). -/
def serviceCreateMonitoredItems (subscriptionId timestampsToReturn : UInt32)
    (items : List (MonitoredItemCreateRequest × CreateAnswers W)) (alloc : Bool) : Outcome W :=
  forItems s subscriptionId timestampsToReturn items.length alloc fun a s =>
    match createItems config enc a timestampsToReturn s items with
    | .error breakdown => .error breakdown
    | .ok (s, results, outputs) => .ok (s, outputs ++ [.created results])

/-- `UA_Subscription_getMonitoredItem` (`ua_subscription.c:316-324`) in the subscription at an
address. -/
def getMonitoredItem (a : Nat) (monitoredItemID : UInt32) : Option (MonitoredItem (Sample W)) :=
  (subscriptionAt s.session a).bind fun sub =>
    Keyed.find MonitoredItem.itemId sub.monitoredItems monitoredItemID

/-- `Service_ModifyMonitoredItems_single` (`:307-321`). -/
def serviceModifyMonitoredItemsSingle (a : Nat) (request : MonitoredItemModifyRequest)
    (registered : Bool) : Monitored W × MonitoredItemModifyResult :=
  match getMonitoredItem s a request.monitoredItemId with
  | none => (s, ⟨StatusCode.badMonitoredItemIdInvalid, 0⟩)
  | some mon =>
      (setMonitoredItemSettings config s a mon.addr (s.settings mon.addr).monitoringMode
        request.requestedParameters registered,
        ⟨StatusCode.good,
          config.queueSizeLimits.setWithBounds request.requestedParameters.queueSize⟩)

/-- The items of a ModifyMonitoredItems one after the other (`:355-357`). -/
def modifyItems (a : Nat) : Monitored W → List (MonitoredItemModifyRequest × Bool) →
    Monitored W × List MonitoredItemModifyResult
  | s, [] => (s, [])
  | s, (request, registered) :: items =>
      let (s, result) := serviceModifyMonitoredItemsSingle config s a request registered
      let (s, results) := modifyItems a s items
      (s, result :: results)

/-- `Service_ModifyMonitoredItems` (`:323-359`). -/
def serviceModifyMonitoredItems (subscriptionId timestampsToReturn : UInt32)
    (items : List (MonitoredItemModifyRequest × Bool)) (alloc : Bool) : Outcome W :=
  forItems s subscriptionId timestampsToReturn items.length alloc fun a s =>
    let (s, results) := modifyItems config a s items
    .ok (s, [.modified results])

/-- The body of the loop of `Service_SetMonitoringMode` (`:382-395`). -/
def setMonitoringModeSingle (a : Nat) (monitoringMode monitoredItemId : UInt32)
    (registered : Bool) :
    Monitored W × StatusCode :=
  match getMonitoredItem s a monitoredItemId with
  | none => (s, StatusCode.badMonitoredItemIdInvalid)
  | some mon =>
      let settings := s.settings mon.addr
      if monitoringMode = settings.monitoringMode then (s, StatusCode.good)
      else
        (s.setSettings mon.addr
          { settings with
            monitoringMode := monitoringMode
            sampleJobIsRegistered :=
              monitoringMode == monitoringModeReporting &&
                (registered || settings.sampleJobIsRegistered) },
          StatusCode.good)

/-- The items of a SetMonitoringMode one after the other. -/
def setMonitoringModes (a : Nat) (monitoringMode : UInt32) :
    Monitored W → List (UInt32 × Bool) → Monitored W × List StatusCode
  | s, [] => (s, [])
  | s, (monitoredItemId, registered) :: items =>
      let (s, result) := setMonitoringModeSingle s a monitoringMode monitoredItemId registered
      let (s, results) := setMonitoringModes a monitoringMode s items
      (s, result :: results)

/-- `Service_SetMonitoringMode` (`:361-396`). -/
def serviceSetMonitoringMode (subscriptionId monitoringMode : UInt32) (items : List (UInt32 × Bool))
    (alloc : Bool) : Outcome W :=
  match getSubscriptionByID s.session subscriptionId with
  | none => .ok (s, [.fault StatusCode.badSubscriptionIdInvalid])
  | some sub =>
      if items.length = 0 then .ok (s, [.fault StatusCode.badNothingToDo])
      else if ¬ alloc then .ok (s, [.fault StatusCode.badOutOfMemory])
      else
        let (s, results) := setMonitoringModes sub.addr monitoringMode s items
        .ok (s, [.modeSet results])

/-- The services for monitored items, the sample job of a monitored item, and everything else that
can happen to the session. -/
inductive ItemEvent (W : Type) where
  | createMonitoredItems (subscriptionId timestampsToReturn : UInt32)
      (items : List (MonitoredItemCreateRequest × CreateAnswers W)) (alloc : Bool)
  | modifyMonitoredItems (subscriptionId timestampsToReturn : UInt32)
      (items : List (MonitoredItemModifyRequest × Bool)) (alloc : Bool)
  | setMonitoringMode (subscriptionId monitoringMode : UInt32) (items : List (UInt32 × Bool))
      (alloc : Bool)
  | sample (sub mon : Nat) (alloc : SampleAllocs) (read : Reader W)
  | session (event : Event (Sample W))

/-- The events of the session for which there is one with settings here. -/
def Event.ofItems : Event V → Bool
  | .sample .. | .createMonitoredItem .. => true
  | _ => false

/-- A service called over the channel of the session, as `Server.serve`. -/
def Monitored.serve (service : Monitored W → Outcome W) : Outcome W :=
  match s.session.channel with
  | none => .ok (s, [])
  | some _ =>
      service { s with
        session := { s.session with validTill := s.session.clock + s.session.timeout } }

/-- One service call for monitored items, sample or event of the session. -/
def itemStep [Inhabited W] (config : Config) (enc : Encoder W) (s : Monitored W) :
    ItemEvent W → Outcome W
  | .createMonitoredItems subscriptionId timestampsToReturn items alloc =>
      s.serve fun s =>
        serviceCreateMonitoredItems config enc s subscriptionId timestampsToReturn items alloc
  | .modifyMonitoredItems subscriptionId timestampsToReturn items alloc =>
      s.serve fun s =>
        serviceModifyMonitoredItems config s subscriptionId timestampsToReturn items alloc
  | .setMonitoringMode subscriptionId monitoringMode items alloc =>
      s.serve fun s => serviceSetMonitoringMode s subscriptionId monitoringMode items alloc
  | .sample a m alloc read => sampleJob enc s a m alloc read
  | .session event =>
      if event.ofItems then .ok (s, [])
      else
        match step config s.session enc.ofSamples event with
        | .error breakdown => .error (.session breakdown)
        | .ok (session, outputs) =>
            .ok ({ s with session := session }, outputs.map Observation.session)

end FactoryThing.Subscriptions
