import FactoryThing.Types.NodeId

/-!
# Sampled values on their way into notification messages

The queues of the monitored items and the two walks over them that a publish callback makes
(`src/server/ua_subscription.c:55-201` and `:334-436`). A value is a `UA_DataValue` of which the
change filter sees the flags; the rest of it is a parameter. Objects that the source passes around
by pointer carry their address.
-/

namespace FactoryThing.Subscriptions

variable {V : Type}

/-- `UA_DataValue`: the flags the change filter clears, whether the variant is borrowed
(`UA_VARIANT_DATA_NODELETE`), and everything else. -/
structure DataValue (V : Type) where
  hasValue : Bool
  hasServerTimestamp : Bool
  hasServerPicoseconds : Bool
  hasSourceTimestamp : Bool
  hasSourcePicoseconds : Bool
  noDelete : Bool
  content : V
  deriving DecidableEq

/-- `UA_DataValue_init`. -/
instance [Inhabited V] : Inhabited (DataValue V) :=
    ⟨⟨false, false, false, false, false, false, default⟩⟩

def DataValue.map {W : Type} (f : V → W) (value : DataValue V) : DataValue W :=
  { value with content := f value.content }

/-- `UA_DataChangeTrigger`. A number outside the enumeration acts as the last one. -/
inductive DataChangeTrigger where
  | status
  | statusValue
  | statusValueTimestamp
  deriving DecidableEq

/-- `MonitoredItem_queuedValue`. -/
structure QueuedValue (V : Type) where
  clientHandle : UInt32
  value : DataValue V
  deriving DecidableEq

/-- `UA_MonitoredItem` (`ua_subscription.h:32-56`) without what only the sample job and the read
behind it look at. -/
structure MonitoredItem (V : Type) where
  addr : Nat
  itemId : UInt32
  clientHandle : UInt32
  currentQueueSize : UInt32
  maxQueueSize : UInt32
  discardOldest : Bool
  trigger : DataChangeTrigger
  lastSampledValue : Option (List UInt8)
  queue : List (QueuedValue V)
  deriving DecidableEq

/-- Where the program stops: at a failed `UA_assert`, or at a null pointer it goes through. -/
inductive Breakdown where
  | emptyQueue
  | noChannel
  deriving DecidableEq

/-- `ensureSpaceInMonitoredItemQueue` (`:55-70`), with the value it throws away. -/
def ensureSpaceInMonitoredItemQueue (mon : MonitoredItem V) :
    Except Breakdown (MonitoredItem V × List (QueuedValue V)) :=
  if mon.currentQueueSize < mon.maxQueueSize then .ok (mon, [])
  else
    match if mon.discardOldest then mon.queue.head? else mon.queue.getLast? with
    | none => .error .emptyQueue
    | some queueItem =>
        .ok ({ mon with
          queue := if mon.discardOldest then mon.queue.tail else mon.queue.dropLast
          currentQueueSize := mon.currentQueueSize - 1 }, [queueItem])

/-- `UA_calcSizeBinary` and `UA_encodeBinary` of a data value, the latter into a buffer of the
given length. -/
structure Encoder (V : Type) where
  calcSizeBinary : DataValue V → Nat
  encodeBinary : DataValue V → Nat → Option (List UInt8)

/-- Which of the allocations of a sample succeed. -/
structure SampleAllocs where
  buffer : Bool
  queueItem : Bool
  encodingCopy : Bool
  valueCopy : Bool
  deriving DecidableEq

/-- `UA_VALUENCODING_MAXSTACK`. -/
def valueEncodingMaxStack : Nat := 512

/-- `detectValueChangeWithFilter` (`:73-96`): the encoding, if it differs from the last one. -/
def detectValueChangeWithFilter (enc : Encoder V) (alloc : SampleAllocs) (mon : MonitoredItem V)
    (value : DataValue V) : Option (List UInt8) :=
  let binsize := enc.calcSizeBinary value
  if binsize = 0 then none
  else if binsize > valueEncodingMaxStack ∧ ¬ alloc.buffer then none
  else
    match enc.encodeBinary value (max binsize valueEncodingMaxStack) with
    | none => none
    | some encoding => if mon.lastSampledValue = some encoding then none else some encoding

/-- The value as the change filter sees it (`:103-117`). -/
def applyFilter (trigger : DataChangeTrigger) (value : DataValue V) : DataValue V :=
  { value with
    hasValue := value.hasValue && trigger != .status
    hasServerTimestamp := false
    hasServerPicoseconds := false
    hasSourceTimestamp := value.hasSourceTimestamp && trigger == .statusValueTimestamp
    hasSourcePicoseconds := value.hasSourcePicoseconds && trigger == .statusValueTimestamp }

/-- `detectValueChange` (`:100-129`); the flags are put back afterwards. -/
def detectValueChange (enc : Encoder V) (alloc : SampleAllocs) (mon : MonitoredItem V)
    (value : DataValue V) : Option (List UInt8) :=
  detectValueChangeWithFilter enc alloc mon (applyFilter mon.trigger value)

/-- Whether the buffer of the encoding is still the one on the stack (`:162`). -/
def onStack (enc : Encoder V) (mon : MonitoredItem V) (value : DataValue V) : Bool :=
  enc.calcSizeBinary (applyFilter mon.trigger value) ≤ valueEncodingMaxStack

/-- What a sample does: the monitored item afterwards, whether the value was accepted and the
values thrown away for it. -/
structure Sampled (V : Type) where
  mon : MonitoredItem V
  accepted : Bool
  discarded : List (QueuedValue V)

/-- `sampleCallbackWithValue` (`:132-202`). -/
def sampleCallbackWithValue (enc : Encoder V) (alloc : SampleAllocs) (mon : MonitoredItem V)
    (value : DataValue V) : Except Breakdown (Sampled V) :=
  match detectValueChange enc alloc mon value with
  | none => .ok ⟨mon, false, []⟩
  | some valueEncoding =>
      if ¬ alloc.queueItem then .ok ⟨mon, false, []⟩
      else if onStack enc mon value ∧ ¬ alloc.encodingCopy then .ok ⟨mon, false, []⟩
      else if (value.hasValue ∧ value.noDelete) ∧ ¬ alloc.valueCopy then .ok ⟨mon, false, []⟩
      else
        -- the point of no return
        let newQueueItem : QueuedValue V := ⟨mon.clientHandle, value⟩
        match ensureSpaceInMonitoredItemQueue { mon with lastSampledValue := some valueEncoding }
          with
        | .error breakdown => .error breakdown
        | .ok (mon, discarded) =>
            .ok ⟨{ mon with
              queue := mon.queue ++ [newQueueItem]
              currentQueueSize := mon.currentQueueSize + 1 }, true, discarded⟩

/-- The inner loop of `countQueuedNotifications`: the notifications counted and the flag. -/
def countQueue (notificationsPerPublish : Nat) : List (QueuedValue V) → Nat × Bool → Nat × Bool
  | [], counted => counted
  | _ :: queue, (notifications, moreNotifications) =>
      if notifications ≥ notificationsPerPublish then (notifications, true)
      else countQueue notificationsPerPublish queue (notifications + 1, moreNotifications)

/-- The outer loop; the `break` leaves only the inner one. -/
def countItems (notificationsPerPublish : Nat) : List (MonitoredItem V) → Nat × Bool → Nat × Bool
  | [], counted => counted
  | mon :: mons, counted =>
      countItems notificationsPerPublish mons (countQueue notificationsPerPublish mon.queue counted)

structure MonitoredItemNotification (V : Type) where
  clientHandle : UInt32
  value : DataValue V
  deriving DecidableEq

/-- `UA_MonitoredItemNotification_init`. -/
instance [Inhabited V] : Inhabited (MonitoredItemNotification V) := ⟨⟨0, default⟩⟩

/-- The inner loop of `prepareNotificationMessage`, from position `l` of the array on: the
notifications written and what stays in the queue. -/
def moveQueue (notifications : Nat) : Nat → List (QueuedValue V) →
    List (MonitoredItemNotification V) × List (QueuedValue V)
  | _, [] => ([], [])
  | l, qv :: queue =>
      if l ≥ notifications then ([], qv :: queue)
      else
        let (moved, left) := moveQueue notifications (l + 1) queue
        (⟨qv.clientHandle, qv.value⟩ :: moved, left)

/-- The outer loop. It returns at the first value that has no place any more. -/
def moveItems (notifications : Nat) : Nat → List (MonitoredItem V) →
    List (MonitoredItemNotification V) × List (MonitoredItem V)
  | _, [] => ([], [])
  | l, mon :: mons =>
      let (moved, left) := moveQueue notifications l mon.queue
      let mon' : MonitoredItem V :=
        { mon with
          queue := left
          currentQueueSize := mon.currentQueueSize - UInt32.ofNat moved.length }
      if left = [] then
        let (moved', mons') := moveItems notifications (l + moved.length) mons
        (moved ++ moved', mon' :: mons')
      else (moved, mon' :: mons)

/-- All values queued in monitored items, in the order of the walks. -/
def queuedValues (mons : List (MonitoredItem V)) : List (QueuedValue V) :=
  mons.flatMap MonitoredItem.queue

/-- The notification a queued value becomes. -/
def QueuedValue.notification (qv : QueuedValue V) : MonitoredItemNotification V :=
  ⟨qv.clientHandle, qv.value⟩

theorem countQueue_eq {limit n : Nat} (hn : n ≤ limit) (queue : List (QueuedValue V))
    (more : Bool) :
    countQueue limit queue (n, more) =
      (min (n + queue.length) limit, more || decide (limit < n + queue.length)) := by
  induction queue generalizing n more with
  | nil =>
    have hlt : ¬ limit < n := by omega
    simp [countQueue, hn, hlt]
  | cons qv queue ih =>
    unfold countQueue
    rw [List.length_cons]
    split
    · have hlt : limit < n + (queue.length + 1) := by omega
      simp only [hlt, decide_true, Bool.or_true, Prod.mk.injEq, and_true]
      omega
    · rw [ih (by omega), show n + 1 + queue.length = n + (queue.length + 1) by omega]

theorem countItems_eq {limit n : Nat} (hn : n ≤ limit) (mons : List (MonitoredItem V))
    (more : Bool) :
    countItems limit mons (n, more) =
      (min (n + (queuedValues mons).length) limit,
        more || decide (limit < n + (queuedValues mons).length)) := by
  induction mons generalizing n more with
  | nil =>
    have hlt : ¬ limit < n := by omega
    simp [countItems, queuedValues, hn, hlt]
  | cons mon mons ih =>
    have hlen : (queuedValues (mon :: mons)).length =
        mon.queue.length + (queuedValues mons).length := by
      simp [queuedValues]
    rw [countItems, countQueue_eq hn, ih (Nat.min_le_right _ _), hlen]
    congr 1
    · omega
    · rw [Bool.or_assoc]
      congr 1
      rw [← Bool.decide_or]
      congr 1
      apply propext
      omega

theorem moveQueue_eq (notifications l : Nat) (queue : List (QueuedValue V)) :
    moveQueue notifications l queue =
      ((queue.take (notifications - l)).map QueuedValue.notification,
        queue.drop (notifications - l)) := by
  induction queue generalizing l with
  | nil => simp [moveQueue]
  | cons qv queue ih =>
    unfold moveQueue
    split
    · rename_i hfull
      rw [Nat.sub_eq_zero_of_le hfull]
      rfl
    · rw [ih, show notifications - l = notifications - (l + 1) + 1 by omega]
      rfl

theorem moveItems_eq (notifications l : Nat) (mons : List (MonitoredItem V)) :
    (moveItems notifications l mons).1 =
        ((queuedValues mons).take (notifications - l)).map QueuedValue.notification ∧
      queuedValues (moveItems notifications l mons).2 =
        (queuedValues mons).drop (notifications - l) := by
  induction mons generalizing l with
  | nil => simp [moveItems, queuedValues]
  | cons mon mons ih =>
    have hcons : ∀ (mon' : MonitoredItem V) (mons' : List (MonitoredItem V)),
        queuedValues (mon' :: mons') = mon'.queue ++ queuedValues mons' := fun _ _ => rfl
    unfold moveItems
    rw [moveQueue_eq]
    dsimp only
    rw [List.length_map, List.length_take, hcons]
    split
    · rename_i hleft
      obtain ⟨hmoved, hrest⟩ := ih (l + min (notifications - l) mon.queue.length)
      rw [hmoved, hcons, hrest, List.take_append, List.drop_append, List.map_append]
      rw [show notifications - (l + min (notifications - l) mon.queue.length) =
        notifications - l - mon.queue.length by omega]
      exact ⟨rfl, rfl⟩
    · rename_i hleft
      have hlen : notifications - l < mon.queue.length :=
        Nat.lt_of_not_le fun hle => hleft (List.drop_eq_nil_iff.mpr hle)
      rw [hcons, List.take_append_of_le_length (by omega), List.drop_append_of_le_length (by omega)]
      exact ⟨rfl, rfl⟩

theorem map_addr_moveItems (notifications l : Nat) (mons : List (MonitoredItem V)) :
    (moveItems notifications l mons).2.map MonitoredItem.addr = mons.map MonitoredItem.addr := by
  induction mons generalizing l with
  | nil => rfl
  | cons mon mons ih =>
    unfold moveItems
    dsimp only
    split
    · simp [ih]
    · rfl

end FactoryThing.Subscriptions
