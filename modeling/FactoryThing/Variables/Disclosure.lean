import FactoryThing.Subscriptions.ItemSettings
import FactoryThing.Variables.Reading
import FactoryThing.Variants.Slices

/-!
# Who sees the value of a variable

A session that reads, monitors and publishes. The Read service does not look at the access level
when it reads a value, neither for a ReadRequest nor for a sample, so what keeps a value from a
session is only that the session does not ask for it. Two servers that differ in the value of one
variable are the same to a session that never does.
-/

namespace FactoryThing.Variables

open AddressSpace Variants
open Subscriptions (ReadValueId attributeIdValue timestampsToReturnNeither binaryEncoding Monitored
  ItemEvent ItemBreakdown SampleAllocs MonitoredItemCreateRequest CreateAnswers Reader Encoder
    Config
  itemStep itemAt newSettings sampleItem sampleJob IfRead)

variable {α : Type}

/-- What the environment answers while a monitored item is created. -/
structure CreateEnv (α : Type) where
  exampleRead : ReadEnv α
  newMon : Bool
  nodeIdCopied : Bool
  registered : Bool
  firstRead : ReadEnv α
  sampleAllocs : SampleAllocs
  rangeCopied : Bool

/-- What the session asks for, the sample job of a monitored item, and what else can happen to its
subscriptions. -/
inductive ReadingEvent (α : Type) where
  | read (request : ReadRequest α) (alloc : Bool)
  | createMonitoredItems (subscriptionId timestampsToReturn : UInt32)
      (items : List (MonitoredItemCreateRequest × CreateEnv α)) (alloc : Bool)
  | sample (sub mon : Nat) (alloc : SampleAllocs) (env : ReadEnv α)
  | item (event : ItemEvent (ReadContent α))

/-- What the session sees of a step. -/
inductive Seen (α : Type) where
  | results (results : List (ReadResult α))
  | fault (serviceResult : StatusCode)
  | item (o : Subscriptions.Observation (ReadContent α))

variable (access : AccessControl) (sv : Server (NodeAttributes α))

/-- The Read service as the monitored items use it. -/
def readerOf (env : ReadEnv α) : Reader (ReadContent α) := readOnce access env sv

/-- The answers for a new monitored item. -/
def CreateEnv.answers (itemToMonitor : ReadValueId) (timestampsToReturn : UInt32)
    (env : CreateEnv α) : CreateAnswers (ReadContent α) where
  exampleRead := (readerOf access sv env.exampleRead timestampsToReturn itemToMonitor).map fun v =>
    if v.content.hasStatus then some v.content.status else none
  newMon := env.newMon
  nodeIdCopied := env.nodeIdCopied
  registered := env.registered
  read := readerOf access sv env.firstRead
  sampleAllocs := env.sampleAllocs
  rangeCopied := env.rangeCopied

/-- The items of a CreateMonitoredItems with their answers. -/
def answered (timestampsToReturn : UInt32)
    (items : List (MonitoredItemCreateRequest × CreateEnv α)) :
    List (MonitoredItemCreateRequest × CreateAnswers (ReadContent α)) :=
  items.map fun (request, env) =>
    (request, env.answers access sv request.itemToMonitor timestampsToReturn)

def readsNothing {W : Type} : ItemEvent W → Bool
  | .createMonitoredItems .. | .sample .. => false
  | _ => true

/-- `Service_Read` (`src/server/ua_services_attribute.c:880-935`) over the channel of the
session. -/
def serviceRead (request : ReadRequest α) (alloc : Bool) :
    Except ItemBreakdown (List (Seen α)) :=
  if readStatus request alloc ≠ StatusCode.good then .ok [.fault (readStatus request alloc)]
  else
    match readAll access sv request.timestampsToReturn request.nodesToRead with
    | .error fault => .error (.read fault)
    | .ok results => .ok [.results results]

/-- One event of a session on a server. -/
def readingStep (config : Config) (enc : Encoder (ReadContent α)) (access : AccessControl)
    (sv : Server (NodeAttributes α)) (s : Monitored (ReadContent α)) (event : ReadingEvent α) :
    Except ItemBreakdown (Monitored (ReadContent α) × List (Seen α)) :=
  let seen := Except.map fun (s, outputs) => (s, outputs.map Seen.item)
  match event with
  | .read request alloc =>
      match s.session.channel with
      | none => .ok (s, [])
      | some _ =>
          (serviceRead access sv request alloc).map fun outputs =>
            ({ s with
              session := { s.session with validTill := s.session.clock + s.session.timeout } },
                outputs)
  | .createMonitoredItems subscriptionId timestampsToReturn items alloc =>
      seen (itemStep config enc s (.createMonitoredItems subscriptionId timestampsToReturn
        (answered access sv timestampsToReturn items) alloc))
  | .sample a m alloc env =>
      seen (itemStep config enc s (.sample a m alloc (readerOf access sv env)))
  | .item event => if readsNothing event then seen (itemStep config enc s event) else .ok (s, [])

/-- The variable with another stored value. -/
def withValue (node : Node (NodeAttributes α)) (v : DataValue α) : Node (NodeAttributes α) :=
  { node with attributes := { node.attributes with value := .data v } }

/-- Two servers with the same nodes, up to the value stored in one variable. -/
structure DifferInValue (x : NodeKey) (sv sv' : Server (NodeAttributes α)) : Prop where
  others : ∀ y, y ≠ x → sv'.get y = sv.get y
  stored : ∃ node v v', node.nodeClass = .variable ∧ sv.get x = some (withValue node v) ∧
    sv'.get x = some (withValue node v')

/-- A read that comes to the value of the variable: its encoding is known and its index range, if it
has one, is well formed. -/
def ReadsValue (x : NodeKey) (env : ReadEnv α) (id : ReadValueId) : Prop :=
  id.nodeId = x ∧ id.attributeId = attributeIdValue ∧
    (id.dataEncoding.name = [] ∨ id.dataEncoding.name = binaryEncoding) ∧
    ∃ range n, parseReadRange env id.indexRange 0 = .ok (.ok range, n)

variable {access : AccessControl} {sv sv' : Server (NodeAttributes α)} {x : NodeKey}

theorem readOtherAttribute_withValue (env : ReadEnv α) (node : Node (NodeAttributes α))
    (v v' : DataValue α) (attributeId : UInt32) :
    readOtherAttribute access env (withValue node v) attributeId =
      readOtherAttribute access env (withValue node v') attributeId := rfl

theorem readValueAttributeComplete_withValue {env : ReadEnv α} {indexRange : List UInt8}
    (hparse : ∀ range n, parseReadRange env indexRange 0 ≠ .ok (.ok range, n))
    (node : Node (NodeAttributes α)) (v v' : DataValue α) (timestamps : UInt32) :
    readValueAttributeComplete env (withValue node v) timestamps indexRange 0 =
      readValueAttributeComplete env (withValue node v') timestamps indexRange 0 := by
  unfold readValueAttributeComplete
  cases hresult : parseReadRange env indexRange 0 with
  | error fault => simp [bind, StateT.bind, Except.bind, hresult]
  | ok parsed =>
    obtain ⟨parsed, n⟩ := parsed
    cases parsed with
    | error retval => simp [bind, StateT.bind, Except.bind, hresult]
    | ok range => exact absurd hresult (hparse range n)

theorem readAttribute_withValue {env : ReadEnv α} {id : ReadValueId}
    (hencoding : id.dataEncoding.name = [] ∨ id.dataEncoding.name = binaryEncoding)
    (hnot : ¬ ReadsValue id.nodeId env id) (node : Node (NodeAttributes α)) (v v' : DataValue α)
    (timestamps : UInt32) :
    readAttribute access env (withValue node v) timestamps id 0 =
      readAttribute access env (withValue node v') timestamps id 0 := by
  unfold readAttribute
  by_cases hvalue : id.attributeId = attributeIdValue
  · rw [if_pos hvalue, if_pos hvalue]
    have hclass : (withValue node v').nodeClass = (withValue node v).nodeClass := rfl
    rw [hclass]
    by_cases hvariable : (withValue node v).nodeClass ∈ [NodeClass.variable, .variableType]
    · rw [if_pos hvariable, if_pos hvariable]
      exact readValueAttributeComplete_withValue
        (fun range n hok => hnot ⟨rfl, hvalue, hencoding, range, n, hok⟩) node v v' timestamps
    · rw [if_neg hvariable, if_neg hvariable]
  · rw [if_neg hvalue, if_neg hvalue, readOtherAttribute_withValue env node v v']

theorem readOnce_eq (hdiffer : DifferInValue x sv sv') {env : ReadEnv α} {id : ReadValueId}
    (hnot : ¬ ReadsValue x env id) (timestamps : UInt32) :
    readOnce access env sv' timestamps id = readOnce access env sv timestamps id := by
  unfold readOnce serviceReadSingle
  split
  · rfl
  rename_i hencoding
  split
  · rfl
  by_cases hx : id.nodeId = x
  · subst hx
    obtain ⟨node, v, v', -, hget, hget'⟩ := hdiffer.stored
    have hknown : id.dataEncoding.name = [] ∨ id.dataEncoding.name = binaryEncoding := by
      by_cases hname : id.dataEncoding.name = []
      · exact Or.inl hname
      · exact Or.inr (Decidable.not_not.mp fun hne =>
          hencoding ⟨List.length_pos_iff.mpr hname, hne⟩)
    rw [hget, hget']
    have hattribute :=
      @readAttribute_withValue _ access _ _ hknown hnot node v' v timestamps
    simp only [StateT.run', bind, StateT.bind, hattribute]
  · rw [hdiffer.others _ hx]

theorem readAll_eq (hdiffer : DifferInValue x sv sv') (timestamps : UInt32)
    (ids : List (ReadValueId × ReadEnv α)) (hnot : ∀ item ∈ ids, ¬ ReadsValue x item.2 item.1) :
    readAll access sv' timestamps ids = readAll access sv timestamps ids := by
  induction ids with
  | nil => rfl
  | cons item ids ih =>
    unfold readAll
    rw [readOnce_eq hdiffer (hnot item List.mem_cons_self),
      ih fun item hitem => hnot item (List.mem_cons_of_mem _ hitem)]

section Agree

variable {W : Type} {config : Config} {enc : Encoder W} {s : Monitored W}

theorem sampleItem_congr {a m : Nat} {alloc : SampleAllocs} {read read' : Reader W}
    (h : read' (s.settings m).timestampsToReturn (s.settings m).readValueId =
      read (s.settings m).timestampsToReturn (s.settings m).readValueId) :
    sampleItem enc s a m alloc read' = sampleItem enc s a m alloc read := by
  unfold sampleItem Subscriptions.ItemSettings.readValue
  rw [h]

/-- The two reads of a new monitored item have the same outcome, as far as they are made. -/
structure SameReads (timestampsToReturn : UInt32) (request : MonitoredItemCreateRequest)
    (answers answers' : CreateAnswers W) : Prop where
  exampleRead : answers'.exampleRead = answers.exampleRead
  newMon : answers'.newMon = answers.newMon
  nodeIdCopied : answers'.nodeIdCopied = answers.nodeIdCopied
  registered : answers'.registered = answers.registered
  sampleAllocs : answers'.sampleAllocs = answers.sampleAllocs
  rangeCopied : answers'.rangeCopied = answers.rangeCopied
  read : IfRead answers.exampleRead fun status =>
    Subscriptions.checkItemToMonitor request.itemToMonitor status = StatusCode.good →
      request.monitoringMode = Subscriptions.monitoringModeReporting →
        let settings := newSettings timestampsToReturn request answers.registered
        answers'.read settings.timestampsToReturn settings.readValueId =
          answers.read settings.timestampsToReturn settings.readValueId

theorem createSingle_congr {timestampsToReturn : UInt32} {request : MonitoredItemCreateRequest}
    {answers answers' : CreateAnswers W}
    (h : SameReads timestampsToReturn request answers answers') (a : Nat) :
    Subscriptions.serviceCreateMonitoredItemsSingle config enc s a timestampsToReturn request
        answers' =
      Subscriptions.serviceCreateMonitoredItemsSingle config enc s a timestampsToReturn request
        answers := by
  unfold Subscriptions.serviceCreateMonitoredItemsSingle
  rw [h.exampleRead, h.newMon, h.nodeIdCopied, h.registered, h.sampleAllocs, h.rangeCopied]
  cases hstatus : answers.exampleRead with
  | error fault => rfl
  | ok status =>
    dsimp only
    by_cases hgood : Subscriptions.checkItemToMonitor request.itemToMonitor status = StatusCode.good
    · by_cases hreporting : request.monitoringMode = Subscriptions.monitoringModeReporting
      · have hsettings : (Subscriptions.addItem config s a timestampsToReturn request
            answers.registered).settings s.session.nextAddr =
              newSettings timestampsToReturn request answers.registered := by
          simp [Subscriptions.addItem, Monitored.setSettings]
        have hread := h.read status hstatus hgood hreporting
        rw [← hsettings] at hread
        have hsample : sampleItem enc (Subscriptions.addItem config s a timestampsToReturn request
            answers.registered) a s.session.nextAddr answers.sampleAllocs answers'.read =
          sampleItem enc (Subscriptions.addItem config s a timestampsToReturn request
            answers.registered) a s.session.nextAddr answers.sampleAllocs answers.read :=
          sampleItem_congr hread
        rw [hsample]
      · rw [if_neg hreporting, if_neg hreporting]
    · rw [if_pos hgood, if_pos hgood]

theorem createItems_congr {timestampsToReturn : UInt32} {a : Nat}
    {items items' : List (MonitoredItemCreateRequest × CreateAnswers W)}
    (h : List.Forall₂ (fun item item' => item'.1 = item.1 ∧
      SameReads timestampsToReturn item.1 item.2 item'.2) items items') :
    ∀ s : Monitored W, Subscriptions.createItems config enc a timestampsToReturn s items' =
      Subscriptions.createItems config enc a timestampsToReturn s items := by
  induction h with
  | nil => exact fun _ => rfl
  | @cons item item' items items' hitem _ ih =>
    intro s
    obtain ⟨request, answers⟩ := item
    obtain ⟨request', answers'⟩ := item'
    obtain ⟨hrequest, hreads⟩ := hitem
    subst hrequest
    unfold Subscriptions.createItems
    rw [createSingle_congr hreads]
    cases Subscriptions.serviceCreateMonitoredItemsSingle config enc s a timestampsToReturn request'
      answers with
    | error breakdown => rfl
    | ok created =>
      dsimp only
      rw [ih]

theorem forItems_congr {subscriptionId timestampsToReturn : UInt32} {size : Nat} {alloc : Bool}
    {serve serve' : Nat → Monitored W → Subscriptions.Outcome W}
    (h : timestampsToReturn ≤ timestampsToReturnNeither →
      Subscriptions.getSubscriptionByID s.session subscriptionId ≠ none → alloc →
        ∀ a s', serve' a s' = serve a s') :
    Subscriptions.forItems s subscriptionId timestampsToReturn size alloc serve' =
      Subscriptions.forItems s subscriptionId timestampsToReturn size alloc serve := by
  unfold Subscriptions.forItems
  split
  · rfl
  rename_i htimestamps
  cases hsub : Subscriptions.getSubscriptionByID s.session subscriptionId with
  | none => rfl
  | some sub =>
    dsimp only
    split
    · rfl
    · split
      · rfl
      · rename_i halloc
        exact h (UInt32.not_lt.mp htimestamps) (by rw [hsub]; exact nofun)
          (Decidable.not_not.mp halloc) sub.addr _

end Agree

/-- An item of a CreateMonitoredItems whose reads, as far as they are made, do not come to the value
of the variable. -/
def CreateUnasked (x : NodeKey) (access : AccessControl) (sv : Server (NodeAttributes α))
    (timestampsToReturn : UInt32) (request : MonitoredItemCreateRequest) (env : CreateEnv α) :
    Prop :=
  ¬ ReadsValue x env.exampleRead request.itemToMonitor ∧
    IfRead (env.answers access sv request.itemToMonitor timestampsToReturn).exampleRead
      fun status =>
      Subscriptions.checkItemToMonitor request.itemToMonitor status = StatusCode.good →
        request.monitoringMode = Subscriptions.monitoringModeReporting →
          ¬ ReadsValue x env.firstRead
            (newSettings timestampsToReturn request env.registered).readValueId

/-- Nothing that is served or sampled comes to the value of the variable. -/
def Unasked (x : NodeKey) (access : AccessControl) (sv : Server (NodeAttributes α))
    (s : Monitored (ReadContent α)) : ReadingEvent α → Prop
  | .read request alloc =>
      s.session.channel ≠ none → readStatus request alloc = StatusCode.good →
        ∀ item ∈ request.nodesToRead, ¬ ReadsValue x item.2 item.1
  | .createMonitoredItems subscriptionId timestampsToReturn items alloc =>
      s.session.channel ≠ none → timestampsToReturn ≤ timestampsToReturnNeither →
        Subscriptions.getSubscriptionByID s.session subscriptionId ≠ none → alloc →
          ∀ item ∈ items, CreateUnasked x access sv timestampsToReturn item.1 item.2
  | .sample a m _ env =>
      itemAt s.session a m ≠ none → (s.settings m).sampleJobIsRegistered →
        ¬ ReadsValue x env (s.settings m).readValueId
  | .item _ => True

theorem sameReads_answers (hdiffer : DifferInValue x sv sv') {timestampsToReturn : UInt32}
    {request : MonitoredItemCreateRequest} {env : CreateEnv α}
    (h : CreateUnasked x access sv timestampsToReturn request env) :
    SameReads timestampsToReturn request
      (env.answers access sv request.itemToMonitor timestampsToReturn)
      (env.answers access sv' request.itemToMonitor timestampsToReturn) where
  exampleRead := by
    unfold CreateEnv.answers readerOf
    rw [readOnce_eq hdiffer h.1]
  newMon := rfl
  nodeIdCopied := rfl
  registered := rfl
  sampleAllocs := rfl
  rangeCopied := rfl
  read status hstatus hgood hreporting :=
    readOnce_eq hdiffer (h.2 status hstatus hgood hreporting) _

theorem readingStep_eq (hdiffer : DifferInValue x sv sv') {config : Config}
    {enc : Encoder (ReadContent α)} {s : Monitored (ReadContent α)} {e : ReadingEvent α}
    (hunasked : Unasked x access sv s e) :
    readingStep config enc access sv' s e = readingStep config enc access sv s e := by
  cases e with
  | read request alloc =>
    unfold readingStep
    cases hchannel : s.session.channel with
    | none => rfl
    | some c =>
      have hread : serviceRead access sv' request alloc = serviceRead access sv request alloc := by
        unfold serviceRead
        split
        · rfl
        · rename_i hgood
          rw [readAll_eq hdiffer _ _ (hunasked (by rw [hchannel]; exact Option.some_ne_none c)
            (Decidable.not_not.mp hgood))]
      dsimp only
      rw [hread]
  | createMonitoredItems subscriptionId timestampsToReturn items alloc =>
    have hitems : itemStep config enc s (.createMonitoredItems subscriptionId timestampsToReturn
        (answered access sv' timestampsToReturn items) alloc) =
      itemStep config enc s (.createMonitoredItems subscriptionId timestampsToReturn
        (answered access sv timestampsToReturn items) alloc) := by
      rw [itemStep, itemStep]
      unfold Monitored.serve
      cases hchannel : s.session.channel with
      | none => rfl
      | some c =>
        have hlength : (answered access sv' timestampsToReturn items).length =
            (answered access sv timestampsToReturn items).length := by
          simp [answered]
        unfold Subscriptions.serviceCreateMonitoredItems
        rw [hlength]
        apply forItems_congr
        intro htimestamps hsub halloc a s'
        have hsame :=
          hunasked (by rw [hchannel]; exact Option.some_ne_none c) htimestamps hsub halloc
        have hforall : List.Forall₂ (fun item item' => item'.1 = item.1 ∧
            SameReads timestampsToReturn item.1 item.2 item'.2)
            (answered access sv timestampsToReturn items)
            (answered access sv' timestampsToReturn items) := by
          unfold answered
          rw [List.forall₂_map_left_iff, List.forall₂_map_right_iff, List.forall₂_same]
          exact fun item hitem => ⟨rfl, sameReads_answers hdiffer (hsame item hitem)⟩
        rw [createItems_congr hforall]
    unfold readingStep
    dsimp only
    rw [hitems]
  | sample a m alloc env =>
    have hsample : itemStep config enc s (.sample a m alloc (readerOf access sv' env)) =
        itemStep config enc s (.sample a m alloc (readerOf access sv env)) := by
      change sampleJob enc s a m alloc _ = sampleJob enc s a m alloc _
      unfold sampleJob
      cases hitem : itemAt s.session a m with
      | none => rfl
      | some mon =>
        dsimp only
        split
        · rename_i hregistered
          exact sampleItem_congr (readOnce_eq hdiffer
            (hunasked (by rw [hitem]; exact Option.some_ne_none mon) hregistered) _)
        · rfl
    unfold readingStep
    dsimp only
    rw [hsample]
  | item event => rfl

/-- In every run in which nothing that is served or sampled comes to the value of a variable, the
session sees the same of two servers that differ in that value only. -/
theorem unasked_value_hidden (config : Config) (enc : Encoder (ReadContent α))
    (access : AccessControl) (hdiffer : DifferInValue x sv sv') :
    ∀ (es : List (ReadingEvent α)) (s : Monitored (ReadContent α)),
      Runs.Guarded (readingStep config enc access sv) (Unasked x access sv) s es →
        Runs.run (readingStep config enc access sv') s es =
          Runs.run (readingStep config enc access sv) s es := by
  intro es
  induction es with
  | nil => exact fun _ _ => rfl
  | cons e es ih =>
    intro s hguarded
    simp only [Runs.Guarded] at hguarded
    simp only [Runs.run]
    rw [readingStep_eq hdiffer hguarded.1]
    cases hstep : readingStep config enc access sv s e with
    | error breakdown => rfl
    | ok stepped =>
      rw [hstep] at hguarded
      dsimp only
      rw [ih stepped.1 hguarded.2]

/-- A variable that may be written and not be read. -/
def secretNode : Node (NodeAttributes Nat) where
  nodeId := ⟨1, .numeric 7⟩
  nodeClass := .variable
  browseName := ⟨1, []⟩
  displayName := ⟨[], []⟩
  isAbstract := false
  attributes :=
    { dataType := baseDataType
      valueRank := -1
      arrayDimensions := []
      value := .dataSource
      description := ⟨[], []⟩
      writeMask := 0
      accessLevel := 0x02
      minimumSamplingInterval := 0
      historizing := false
      symmetric := false
      inverseName := ⟨[], []⟩
      containsNoLoops := false
      eventNotifier := 0
      executable := false }
  references := []

def storedNumber (n : Nat) : DataValue Nat :=
  { (emptyDataValue : DataValue Nat) with
    hasValue := true, value := ⟨some (builtinType .uint32), .scalar n, .null⟩ }

/-- A server in which a number is stored in the variable. -/
def secretServer (n : Nat) : Server (NodeAttributes Nat) :=
  ⟨[withValue secretNode (storedNumber n)], 2, 0⟩

theorem secretServer_differ (n n' : Nat) :
    DifferInValue secretNode.nodeId (secretServer n) (secretServer n') where
  others y hy := by
    have hne : ∀ k, (secretServer k).get y = none := by
      intro k
      exact Keyed.find_eq_none_iff.mpr (by simpa [secretServer, withValue] using hy)
    rw [hne, hne]
  stored := ⟨secretNode, storedNumber n, storedNumber n', rfl, rfl, rfl⟩

/-- A plug-in that lets the session do what the nodes let it do. -/
def nodesDecide : AccessControl := ⟨fun _ => 0xFFFFFFFF, fun _ => 0xFF, fun _ => true⟩

def plainEnv : ReadEnv Nat where
  elements := numberElements
  depth := 1
  readSource _ _ _ := none
  serverNow := 0
  sourceNow := 0
  scalarCopied := true

def silentEncoder : Encoder (ReadContent Nat) := ⟨fun _ => 0, fun _ _ => none⟩

/-- A read of an attribute of the variable. -/
def readSecret (attributeId : UInt32) : List (ReadingEvent Nat) :=
  [.read ⟨0, false, [(⟨secretNode.nodeId, attributeId, [], ⟨0, []⟩⟩, plainEnv)]⟩ true]

/-- The variants a session has read in a run. -/
def valuesRead : Except ItemBreakdown (Monitored (ReadContent Nat) × List (List (Seen Nat))) →
    List (ReadVariant Nat)
  | .error _ => []
  | .ok (_, replies) => replies.flatten.flatMap fun
      | .results results => results.map fun v => v.content.value
      | _ => []

/-- The session lacks the read bit, and reads the value. -/
theorem unreadable_value_disclosed :
    getUserAccessLevel nodesDecide (withValue secretNode (storedNumber 1)) &&&
      accessLevelMaskRead = 0 ∧ DifferInValue secretNode.nodeId (secretServer 1) (secretServer 2) ∧
      valuesRead (Runs.run (readingStep Subscriptions.standardConfig silentEncoder nodesDecide
          (secretServer 1)) (Monitored.init 1000 0) (readSecret attributeIdValue)) ≠
        valuesRead (Runs.run (readingStep Subscriptions.standardConfig silentEncoder nodesDecide
          (secretServer 2)) (Monitored.init 1000 0) (readSecret attributeIdValue)) :=
  ⟨by decide, secretServer_differ 1 2, by decide⟩

/-- Only other attributes than the value are asked for. -/
def AsksOther (s : Monitored (ReadContent α)) : ReadingEvent α → Prop
  | .read request _ => ∀ item ∈ request.nodesToRead, item.1.attributeId ≠ attributeIdValue
  | .createMonitoredItems _ _ items _ =>
      ∀ item ∈ items, item.1.itemToMonitor.attributeId ≠ attributeIdValue
  | .sample _ m _ _ => (s.settings m).attributeID ≠ attributeIdValue
  | .item _ => True

instance (s : Monitored (ReadContent α)) : DecidablePred (AsksOther s)
  | .read .. => inferInstanceAs (Decidable (∀ item ∈ _, _))
  | .createMonitoredItems .. => inferInstanceAs (Decidable (∀ item ∈ _, _))
  | .sample .. => inferInstanceAs (Decidable (_ ≠ _))
  | .item _ => isTrue trivial

theorem unasked_of_asksOther (s : Monitored (ReadContent α)) (e : ReadingEvent α)
    (h : AsksOther s e) : Unasked x access sv s e := by
  cases e with
  | read request alloc => exact fun _ _ item hitem hread => h item hitem hread.2.1
  | createMonitoredItems subscriptionId timestampsToReturn items alloc =>
    exact fun _ _ _ _ item hitem =>
      ⟨fun hread => h item hitem hread.2.1, fun _ _ _ _ hread => h item hitem hread.2.1⟩
  | sample a m alloc env => exact fun _ _ hread => h hread.2.1
  | item event => exact trivial

/-- The session reads the access level and the data type, and monitors the access level. -/
def watchAccessLevel : List (ReadingEvent Nat) :=
  [.item (.session (.createSubscription ⟨true, 3, 1, 0⟩ true)),
    .read ⟨0, false, [(⟨secretNode.nodeId, 17, [], ⟨0, []⟩⟩, plainEnv),
      (⟨secretNode.nodeId, 14, [], ⟨0, []⟩⟩, plainEnv)]⟩ true,
    .createMonitoredItems 1 0 [(⟨⟨secretNode.nodeId, 17, [], ⟨0, []⟩⟩,
        Subscriptions.monitoringModeReporting, ⟨7, 3, true, .statusValue⟩⟩,
      ⟨plainEnv, true, true, true, plainEnv, ⟨true, true, true, true⟩, true⟩)] true,
    .sample 1 2 ⟨true, true, true, true⟩ plainEnv]

def constantEncoder : Encoder (ReadContent Nat) := ⟨fun _ => 1, fun _ _ => some [0]⟩

theorem unasked_value_hidden_accessLevel :
    Runs.run (readingStep Subscriptions.standardConfig constantEncoder nodesDecide (secretServer 2))
        (Monitored.init 1000 0) watchAccessLevel =
      Runs.run (readingStep Subscriptions.standardConfig constantEncoder nodesDecide
        (secretServer 1))
        (Monitored.init 1000 0) watchAccessLevel := by
  apply unasked_value_hidden _ _ _ (secretServer_differ 1 2)
  have hguarded : Runs.Guarded (readingStep Subscriptions.standardConfig constantEncoder nodesDecide
      (secretServer 1)) AsksOther (Monitored.init 1000 0) watchAccessLevel := by decide
  exact Runs.guarded_imp unasked_of_asksOther hguarded

end FactoryThing.Variables
