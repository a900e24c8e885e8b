import FactoryThing.Subscriptions.Sampling
import Mathlib.Algebra.Order.Group.Multiset
import Mathlib.Tactic.Abel

/-!
# Where the sampled values are

Every sampled value is tagged with the step it was sampled in and the monitored item it was sampled
for. The functions of the model do not look at the tags. What is then proved of all runs is that an
accepted value is in the queue of its monitored item, in one published message, among the values
discarded for want of room, or went with its subscription, and in no two of these places.
-/

namespace FactoryThing.Subscriptions

variable {V : Type}

variable {a m : Nat}

/-- A value with the step and the monitored item it was sampled in. -/
structure Tagged (V : Type) where
  step : Nat
  sub : Nat
  mon : Nat
  value : V
  deriving DecidableEq

instance [Inhabited V] : Inhabited (Tagged V) := ⟨⟨0, 0, 0, default⟩⟩

/-- The encoder does not see the tags. -/
def Encoder.tagged (enc : Encoder V) : Encoder (Tagged V) where
  calcSizeBinary value := enc.calcSizeBinary (value.map Tagged.value)
  encodeBinary value := enc.encodeBinary (value.map Tagged.value)

/-- An event whose samples carry the number of the step, the subscription and the item. -/
def Event.tag (n : Nat) : Event V → Event (Tagged V)
  | .sample a m alloc value => .sample a m alloc (value.map fun v => ⟨n, a, m, v⟩)
  | .publishCallback a turns => .publishCallback a turns
  | .tick elapsed => .tick elapsed
  | .publish request alloc turns => .publish request alloc turns
  | .republish subscriptionID sequenceNumber copied =>
      .republish subscriptionID sequenceNumber copied
  | .createSubscription settings alloc => .createSubscription settings alloc
  | .createMonitoredItem subscriptionID params alloc =>
      .createMonitoredItem subscriptionID params alloc
  | .deleteSubscriptions ids alloc => .deleteSubscriptions ids alloc
  | .openChannel => .openChannel
  | .closeChannel channel alloc => .closeChannel channel alloc
  | .activateSession channel alloc => .activateSession channel alloc
  | .delayedCallbacks => .delayedCallbacks

/-- The machine on tagged values, with the number of its step. -/
def taggedStep [Inhabited V] (config : Config) (enc : Encoder V) (s : Nat × Server (Tagged V))
    (e : Event V) :
    Except Breakdown ((Nat × Server (Tagged V)) × List (Output (Tagged V))) :=
  match step config s.2 enc.tagged (e.tag s.1) with
  | .error breakdown => .error breakdown
  | .ok (sv, outputs) => .ok ((s.1 + 1, sv), outputs)

/-- Whether a value was sampled for a monitored item. -/
def isFrom (a m : Nat) (value : DataValue (Tagged V)) : Bool :=
  value.content.sub = a ∧ value.content.mon = m

/-- The values accepted by `sampleCallbackWithValue`. -/
def acceptedValues : List (Output V) → List (DataValue V)
  | [] => []
  | .accepted _ _ value :: log => value :: acceptedValues log
  | _ :: log => acceptedValues log

/-- The notification messages that are sent, in order. -/
def publishedMessages : List (Output V) → List (NotificationMessage V)
  | [] => []
  | .published _ response :: log => response.notificationMessage :: publishedMessages log
  | _ :: log => publishedMessages log

def NotificationMessage.values (message : NotificationMessage V) : List (DataValue V) :=
  message.notificationData.map MonitoredItemNotification.value

def publishedValues (log : List (Output V)) : List (DataValue V) :=
  (publishedMessages log).flatMap NotificationMessage.values

/-- The values thrown away for want of room. -/
def discardedValues : List (Output V) → List (DataValue V)
  | [] => []
  | .discarded _ _ qv :: log => qv.value :: discardedValues log
  | _ :: log => discardedValues log

def Subscription.values (sub : Subscription V) : List (DataValue V) :=
  (queuedValues sub.monitoredItems).map QueuedValue.value

/-- The values that were queued in a subscription when it was deleted. -/
def deletedValues : List (Output V) → List (DataValue V)
  | [] => []
  | .deleted sub :: log => sub.values ++ deletedValues log
  | _ :: log => deletedValues log

/-- The values queued in one of several monitored items. -/
def itemQueue (mons : List (MonitoredItem V)) (m : Nat) : List (DataValue V) :=
  match Keyed.find MonitoredItem.addr mons m with
  | none => []
  | some mon => mon.queue.map QueuedValue.value

/-- The values queued in a monitored item of the session. -/
def queueAt (sv : Server V) (a m : Nat) : List (DataValue V) :=
  match subscriptionAt sv a with
  | none => []
  | some sub => itemQueue sub.monitoredItems m

section Logs

variable (log log' : List (Output V))

@[simp] theorem acceptedValues_append :
    acceptedValues (log ++ log') = acceptedValues log ++ acceptedValues log' := by
  induction log with
  | nil => rfl
  | cons o log ih => cases o <;> simp [acceptedValues, ih]

@[simp] theorem publishedMessages_append :
    publishedMessages (log ++ log') = publishedMessages log ++ publishedMessages log' := by
  induction log with
  | nil => rfl
  | cons o log ih => cases o <;> simp [publishedMessages, ih]

@[simp] theorem publishedValues_append :
    publishedValues (log ++ log') = publishedValues log ++ publishedValues log' := by
  simp [publishedValues]

@[simp] theorem discardedValues_append :
    discardedValues (log ++ log') = discardedValues log ++ discardedValues log' := by
  induction log with
  | nil => rfl
  | cons o log ih => cases o <;> simp [discardedValues, ih]

@[simp] theorem deletedValues_append :
    deletedValues (log ++ log') = deletedValues log ++ deletedValues log' := by
  induction log with
  | nil => rfl
  | cons o log ih => cases o <;> simp [deletedValues, ih]

variable {log}

theorem values_of_elsewhere (h : ∀ o ∈ log, o.Elsewhere) :
    acceptedValues log = [] ∧ publishedValues log = [] ∧ discardedValues log = [] ∧
      deletedValues log = [] := by
  induction log with
  | nil => exact ⟨rfl, rfl, rfl, rfl⟩
  | cons o log ih =>
    have ho := h o List.mem_cons_self
    obtain ⟨h₁, h₂, h₃, h₄⟩ := ih fun o' ho' => h o' (List.mem_cons_of_mem o ho')
    cases o with
    | requested | queued | refused | drained => exact ⟨h₁, h₂, h₃, h₄⟩
    | _ => exact ho.elim

end Logs

/-- The values are queued in the monitored items they were sampled for. -/
def ItemsPlaced (a : Nat) (mons : List (MonitoredItem (Tagged V))) : Prop :=
  ∀ mon ∈ mons, ∀ qv ∈ mon.queue, isFrom a mon.addr qv.value = true

def Placed (sv : Server (Tagged V)) : Prop :=
  AllItems (fun a mon => ∀ qv ∈ mon.queue, isFrom a mon.addr qv.value = true) sv

theorem filter_values {a : Nat} {mons : List (MonitoredItem (Tagged V))}
    (hplaced : ItemsPlaced a mons) (hnodup : (mons.map MonitoredItem.addr).Nodup) (m : Nat) :
    ((queuedValues mons).map QueuedValue.value).filter (isFrom a m) = itemQueue mons m := by
  induction mons with
  | nil => rfl
  | cons mon mons ih =>
    rw [List.map_cons, List.nodup_cons] at hnodup
    have htail := ih (fun mon' hmon' => hplaced mon' (List.mem_cons_of_mem mon hmon')) hnodup.2
    have hhead := hplaced mon List.mem_cons_self
    have hsplit : ((queuedValues (mon :: mons)).map QueuedValue.value).filter (isFrom a m) =
        (mon.queue.map QueuedValue.value).filter (isFrom a m) ++ itemQueue mons m := by
      rw [← htail]
      simp [queuedValues]
    rw [hsplit]
    unfold itemQueue
    by_cases hm : mon.addr = m
    · subst hm
      have hnone : Keyed.find MonitoredItem.addr mons mon.addr = none :=
        Keyed.find_eq_none_iff.mpr hnodup.1
      rw [Keyed.find_cons_self rfl, hnone, List.append_nil, List.filter_eq_self]
      intro value hvalue
      obtain ⟨qv, hqv, rfl⟩ := List.mem_map.mp hvalue
      exact hhead qv hqv
    · rw [Keyed.find_cons_ne hm, List.filter_eq_nil_iff.mpr, List.nil_append]
      intro value hvalue
      obtain ⟨qv, hqv, rfl⟩ := List.mem_map.mp hvalue
      have hfrom := hhead qv hqv
      simp only [isFrom, decide_eq_true_eq] at hfrom ⊢
      exact fun h => hm (hfrom.2.symm.trans h.2)

theorem filter_values_ne {a b : Nat} {mons : List (MonitoredItem (Tagged V))}
    (hplaced : ItemsPlaced a mons) (hne : b ≠ a) (m : Nat) :
    ((queuedValues mons).map QueuedValue.value).filter (isFrom b m) = [] := by
  rw [List.filter_eq_nil_iff]
  intro value hvalue
  obtain ⟨qv, hqv, rfl⟩ := List.mem_map.mp hvalue
  obtain ⟨mon, hmon, hqv⟩ := List.mem_flatMap.mp hqv
  have hfrom := hplaced mon hmon qv hqv
  simp only [isFrom, decide_eq_true_eq] at hfrom ⊢
  exact fun h => hne (h.1.symm.trans hfrom.1)

/-- How many values a message of the subscription may carry. -/
def Subscription.limit (sub : Subscription V) : Nat :=
  if sub.publishingEnabled then sub.notificationsPerPublish.toNat else 0

theorem countQueuedNotifications_eq (sub : Subscription V) :
    countQueuedNotifications sub =
      (min sub.values.length sub.limit,
        sub.publishingEnabled && decide (sub.limit < sub.values.length)) := by
  unfold countQueuedNotifications Subscription.limit Subscription.values
  split
  · rename_i henabled
    rw [countItems_eq (Nat.zero_le _)]
    simp [henabled]
  · rename_i henabled
    simp [henabled]

variable [Inhabited V] {config : Config} {sv sv' : Server V} {outputs : List (Output V)}

theorem prepareNotificationMessage_values (sub : Subscription V) {notifications : Nat}
    (hle : notifications ≤ sub.values.length) :
    (prepareNotificationMessage sub notifications).1.map MonitoredItemNotification.value =
        sub.values.take notifications ∧
      (prepareNotificationMessage sub notifications).2.values = sub.values.drop notifications := by
  obtain ⟨hmoved, hleft⟩ := moveItems_eq notifications 0 sub.monitoredItems
  rw [Nat.sub_zero] at hmoved hleft
  have hlen : (moveItems notifications 0 sub.monitoredItems).1.length = notifications := by
    rw [hmoved, List.length_map, List.length_take]
    simp only [Subscription.values, List.length_map] at hle
    exact Nat.min_eq_left hle
  unfold prepareNotificationMessage
  dsimp only
  rw [hlen, Nat.sub_self, List.replicate_zero, List.append_nil, hmoved]
  constructor
  · unfold Subscription.values
    rw [List.map_map, ← List.map_take]
    rfl
  · unfold Subscription.values
    rw [hleft, List.map_drop]

theorem answered_values (config : Config) (channel : Nat) (pre : PublishResponseEntry)
    (turn : Turn) (sub : Subscription V) :
    (answered config channel pre turn sub).2.notificationMessage.values =
        sub.values.take sub.limit ∧
      (answered config channel pre turn sub).1.values = sub.values.drop sub.limit ∧
      (answered config channel pre turn sub).2.moreNotifications =
        (sub.publishingEnabled && decide (sub.limit < sub.values.length)) := by
  unfold answered
  rw [countQueuedNotifications_eq]
  unfold setUpResponse
  dsimp only
  split
  · obtain ⟨hmoved, hleft⟩ := prepareNotificationMessage_values sub (Nat.min_le_left _ sub.limit)
    refine ⟨?_, ?_, rfl⟩
    · unfold NotificationMessage.values
      rw [hmoved, Nat.min_comm, ← List.take_eq_take_min]
    · have hvalues : ∀ sub₁ : Subscription V, ∀ entry,
          (addRetransmissionMessage sub₁ config.maxRetransmissionQueueSize entry).monitoredItems =
            sub₁.monitoredItems := by
        intro sub₁ entry
        unfold addRetransmissionMessage
        split <;> rfl
      unfold Subscription.values at hleft ⊢
      rw [hvalues]
      rw [hleft, Nat.min_comm, ← List.drop_eq_drop_min]
  · have hnone : sub.values.length = 0 ∨ sub.limit = 0 := by omega
    refine ⟨?_, ?_, rfl⟩
    · obtain hnone | hnone := hnone
      · rw [List.eq_nil_of_length_eq_zero hnone, List.take_nil]
        rfl
      · rw [hnone]
        rfl
    · obtain hnone | hnone := hnone
      · have hnil := List.eq_nil_of_length_eq_zero hnone
        rw [hnil, List.drop_nil]
        exact hnil
      · rw [hnone]
        rfl

/-- The responses of a publish callback one after the other, given the values that are queued and
those that are left: each carries as many as there are up to the limit, and says whether there are
more. -/
def Paged (publishingEnabled : Bool) (limit : Nat) : List (DataValue V) → List (PublishResponse V) →
    List (DataValue V) → Prop
  | queued, [], left => left = queued
  | queued, response :: responses, left =>
      response.notificationMessage.values = queued.take limit ∧
        response.moreNotifications = (publishingEnabled && decide (limit < queued.length)) ∧
        Paged publishingEnabled limit (queued.drop limit) responses left

theorem settings_answered (config : Config) (channel : Nat) (pre : PublishResponseEntry)
    (turn : Turn) (sub : Subscription V) :
    (answered config channel pre turn sub).1.publishingEnabled = sub.publishingEnabled ∧
      (answered config channel pre turn sub).1.limit = sub.limit := by
  unfold answered setUpResponse prepareNotificationMessage addRetransmissionMessage
  dsimp only
  split
  · split <;> exact ⟨rfl, rfl⟩
  · exact ⟨rfl, rfl⟩

theorem publishCallback_paged (config : Config) (channel : Option Nat)
    (responseQueue : List PublishResponseEntry) :
    ∀ (turns : Nat → Turn) (sub : Subscription V),
      let published := publishCallback config.maxRetransmissionQueueSize channel turns sub
        responseQueue
      Paged sub.publishingEnabled sub.limit sub.values published.sent published.sub.values := by
  induction responseQueue with
  | nil =>
    intro turns sub
    obtain ⟨sub', ended, heq, hsettled, -⟩ | ⟨c, pre, rest, -, hqueue, -⟩ :=
      publishCallback_cases config.maxRetransmissionQueueSize channel turns sub []
    · rw [heq]
      exact congrArg (fun mons => (queuedValues mons).map QueuedValue.value) hsettled.monitoredItems
    · exact nomatch hqueue
  | cons pre responseQueue ih =>
    intro turns sub
    obtain ⟨sub', ended, heq, hsettled, -⟩ | ⟨c, pre', rest, rfl, hqueue, heq⟩ :=
      publishCallback_cases config.maxRetransmissionQueueSize channel turns sub
        (pre :: responseQueue)
    · rw [heq]
      exact congrArg (fun mons => (queuedValues mons).map QueuedValue.value) hsettled.monitoredItems
    · cases hqueue
      obtain ⟨hsent, hleft, hmore⟩ := answered_values config c pre (turns 0) sub
      obtain ⟨henabled, hlimit⟩ := settings_answered config c pre (turns 0) sub
      split at heq
      · rw [heq]
        have hnext := ih (fun n => turns (n + 1)) (answered config c pre (turns 0) sub).1
        rw [henabled, hlimit, hleft] at hnext
        exact ⟨hsent, hmore, hnext⟩
      · rw [heq]
        exact ⟨hsent, hmore, hleft⟩

section Changes

omit [Inhabited V] in
theorem placed_moveQueue {a k l : Nat} {mon : MonitoredItem (Tagged V)}
    (h : ∀ qv ∈ mon.queue, isFrom a mon.addr qv.value = true) :
    ∀ qv ∈ (moveQueue k l mon.queue).2, isFrom a mon.addr qv.value = true := by
  intro qv hqv
  rw [moveQueue_eq] at hqv
  exact h qv (List.mem_of_mem_drop hqv)

theorem Placed.changes {sv sv' : Server (Tagged V)} {outputs : List (Output (Tagged V))}
    (h : Placed sv) (hch : Changes config sv outputs sv') : Placed sv' :=
  hch.allItems (fun _ _ _ _ => nofun) (fun _ _ _ _ hmon => placed_moveQueue hmon) h

omit [Inhabited V] in
theorem queueAt_of_some {sv : Server V} {a : Nat} {sub : Subscription V}
    (h : subscriptionAt sv a = some sub) (m : Nat) :
    queueAt sv a m = itemQueue sub.monitoredItems m := by
  unfold queueAt
  rw [h]

omit [Inhabited V] in
theorem queueAt_of_none {sv : Server V} {a : Nat} (h : subscriptionAt sv a = none) (m : Nat) :
    queueAt sv a m = [] := by
  unfold queueAt
  rw [h]

omit [Inhabited V] in
theorem queueAt_congr {sv sv' : Server V} {a : Nat}
    (h : subscriptionAt sv' a = subscriptionAt sv a) (m : Nat) :
    queueAt sv' a m = queueAt sv a m := by
  unfold queueAt
  rw [h]

omit [Inhabited V] in
theorem queueAt_modifySubscription {sv : Server V} {a : Nat}
    {f : Subscription V → Subscription V} (haddr : ∀ sub, sub.addr = a → (f sub).addr = a)
    (hitems : ∀ sub, subscriptionAt sv a = some sub → ∀ m,
      itemQueue (f sub).monitoredItems m = itemQueue sub.monitoredItems m) (b m : Nat) :
    queueAt (sv.modifySubscription a f) b m = queueAt sv b m := by
  by_cases hb : b = a
  · subst hb
    have hself := subscriptionAt_modifySubscription_self sv haddr
    cases hsub : subscriptionAt sv b with
    | none => rw [queueAt_of_none hsub, queueAt_of_none (by rw [hself, hsub]; rfl)]
    | some sub =>
      rw [hsub] at hself
      rw [queueAt_of_some hsub, queueAt_of_some hself, hitems sub hsub]
  · exact queueAt_congr (subscriptionAt_modifySubscription_ne haddr hb) m

/-- The values of a monitored item in a step: those published are the first ones, those deleted
the last ones. -/
def Moves (a m : Nat) (sv : Server (Tagged V)) (outputs : List (Output (Tagged V)))
    (sv' : Server (Tagged V)) : Prop :=
  ∃ rest, (publishedValues outputs).filter (isFrom a m) ++ queueAt sv' a m ++ rest =
      queueAt sv a m ∧ rest.Perm ((deletedValues outputs).filter (isFrom a m))

omit [Inhabited V] in
theorem Moves.of_eq {sv sv' : Server (Tagged V)} {outputs : List (Output (Tagged V))}
    (hpublished : publishedValues outputs = []) (hdeleted : deletedValues outputs = [])
    (hqueue : queueAt sv' a m = queueAt sv a m) : Moves a m sv outputs sv' :=
  ⟨[], by rw [hpublished, hqueue]; exact List.append_nil _, by rw [hdeleted]; exact .nil⟩

omit [Inhabited V] in
theorem Moves.trans {sv sv₁ sv₂ : Server (Tagged V)} {outputs outputs₁ : List (Output (Tagged V))}
    (h : Moves a m sv outputs sv₁) (h₁ : Moves a m sv₁ outputs₁ sv₂) :
    Moves a m sv (outputs ++ outputs₁) sv₂ := by
  obtain ⟨rest, hsplit, hrest⟩ := h
  obtain ⟨rest₁, hsplit₁, hrest₁⟩ := h₁
  refine ⟨rest₁ ++ rest, ?_, ?_⟩
  · rw [← hsplit, ← hsplit₁]
    simp
  · rw [deletedValues_append, List.filter_append]
    exact List.perm_append_comm.trans (hrest.append hrest₁)

theorem Changes.moves {sv sv' : Server (Tagged V)} {outputs : List (Output (Tagged V))}
    (hwf : WellFormed sv) (hplaced : Placed sv) (h : Changes config sv outputs sv') :
    acceptedValues outputs = [] ∧ discardedValues outputs = [] ∧
      ∀ a m, Moves a m sv outputs sv' := by
  induction h with
  | @frame sv sv' outputs hsubs hnext hout =>
    obtain ⟨haccepted, hpublished, hdiscarded, hdeleted⟩ := values_of_elsewhere hout
    refine ⟨haccepted, hdiscarded, fun a m => ?_⟩
    apply Moves.of_eq hpublished hdeleted
    apply queueAt_congr
    unfold subscriptionAt
    rw [hsubs]
  | settle sv a hf =>
    have haddr := fun sub (h : Subscription.addr sub = a) => (hf sub).addr.trans h
    refine ⟨rfl, rfl, fun b m => .of_eq rfl rfl ?_⟩
    apply queueAt_modifySubscription haddr
    intro sub _ m
    rw [(hf sub).monitoredItems]
  | @publish sv a sub channel pre turn hsub =>
    have haddr : (answered config channel pre turn sub).1.addr = a :=
      (addr_answered config channel pre turn sub).trans (addr_of_find hsub)
    have hmem : sub ∈ sv.serverSubscriptions := Keyed.mem_of_find hsub
    have hitems : ItemsPlaced a sub.monitoredItems := addr_of_find hsub ▸ hplaced sub hmem
    have hitems' : ItemsPlaced a (answered config channel pre turn sub).1.monitoredItems :=
      answered_all (P := fun mon => ∀ qv ∈ mon.queue, isFrom a mon.addr qv.value = true)
        (fun _ _ _ hmon => placed_moveQueue hmon) config channel pre turn hitems
    refine ⟨rfl, rfl, fun b m => ?_⟩
    obtain ⟨hsent, hleft, -⟩ := answered_values config channel pre turn sub
    have hpublished :
      publishedValues [Output.published a (answered config channel pre turn sub).2] =
        sub.values.take sub.limit := by
      rw [← hsent]
      exact List.append_nil _
    refine ⟨[], ?_, .nil⟩
    rw [hpublished, List.append_nil]
    by_cases hb : b = a
    · subst hb
      have hafter : subscriptionAt (sv.modifySubscription b fun _ =>
          (answered config channel pre turn sub).1) b =
            some (answered config channel pre turn sub).1 := by
        rw [subscriptionAt_modifySubscription_self _ fun _ _ => haddr, hsub]
        rfl
      have hnodup := hwf.items_nodup sub hmem
      have hnodup' := hnodup
      rw [← map_addr_answered config channel pre turn sub] at hnodup'
      rw [queueAt_of_some hafter, queueAt_of_some hsub,
        ← filter_values (hitems') hnodup', ← filter_values hitems hnodup]
      change _ ++ (answered config channel pre turn sub).1.values.filter _ =
        sub.values.filter _
      rw [hleft, ← List.filter_append, List.take_append_drop]
    · rw [queueAt_congr (subscriptionAt_modifySubscription_ne (fun _ _ => haddr) hb),
        List.filter_eq_nil_iff.mpr, List.nil_append]
      intro value hvalue
      have hnone := filter_values_ne hitems hb m
      exact List.filter_eq_nil_iff.mp hnone value (List.mem_of_mem_take hvalue)
  | @acknowledge sv a sub sequenceNumber hsub =>
    have hitems := fun sub => (removeRetransmissionMessage_frame (V := Tagged V) sub sequenceNumber)
    have haddr := fun sub (h : Subscription.addr sub = a) => (hitems sub).1.trans h
    refine ⟨rfl, rfl, fun b m => .of_eq rfl rfl ?_⟩
    apply queueAt_modifySubscription haddr
    intro sub _ m
    rw [(hitems sub).2.2.2]
  | republish sv sequenceNumber copied hsub =>
    exact ⟨rfl, rfl, fun a m => .of_eq rfl rfl rfl⟩
  | @delete sv subscriptionID sub hsub =>
    have hmem : sub ∈ sv.serverSubscriptions := Keyed.mem_of_find hsub
    have hitems := hplaced sub hmem
    have hdeleted : deletedValues [Output.deleted sub] = sub.values := List.append_nil _
    refine ⟨rfl, rfl, fun b m => ?_⟩
    by_cases hb : b = sub.addr
    · subst hb
      refine ⟨queueAt sv sub.addr m, ?_, ?_⟩
      · rw [queueAt_of_none (subscriptionAt_remove_self hwf hsub)]
        rfl
      · rw [hdeleted, queueAt_of_some (hwf.find_addr hsub),
          ← filter_values hitems (hwf.items_nodup sub hmem)]
        exact .refl _
    · refine ⟨[], ?_, ?_⟩
      · rw [queueAt_congr (subscriptionAt_remove_ne hsub (Ne.symm hb))]
        exact List.append_nil _
      · rw [hdeleted]
        change [].Perm (((queuedValues sub.monitoredItems).map QueuedValue.value).filter _)
        rw [filter_values_ne hitems hb]
  | createSubscription sv settings subscriptionID =>
    refine ⟨rfl, rfl, fun b m => .of_eq rfl rfl ?_⟩
    by_cases hb : b = sv.nextAddr
    · subst hb
      rw [queueAt_of_none hwf.subscriptionAt_nextAddr]
      exact queueAt_of_some (subscriptionAt_cons_self sv
        (newSubscription config settings sv.nextAddr subscriptionID)) m
    · exact queueAt_congr (subscriptionAt_cons_ne (Ne.symm hb)) m
  | createMonitoredItem sv a params =>
    refine ⟨rfl, rfl, fun b m => .of_eq rfl rfl ?_⟩
    have haddr : ∀ sub, sub.addr = a →
        (Subscription.addMonitoredItem (V := Tagged V) config params sv.nextAddr sub).addr = a :=
      fun _ haddr => haddr
    rw [queueAt_modifySubscription haddr]
    · rfl
    · intro sub hsub m
      have hbounded := hwf.items_bounded sub (Keyed.mem_of_find hsub)
      have hnew : (newMonitoredItem (V := Tagged V) config params sv.nextAddr
          (sub.lastMonitoredItemId + 1)).addr = sv.nextAddr := rfl
      unfold itemQueue Subscription.addMonitoredItem
      dsimp only
      by_cases hm : m = sv.nextAddr
      · subst hm
        have hnone : Keyed.find MonitoredItem.addr sub.monitoredItems sv.nextAddr = none := by
          refine Keyed.find_eq_none_iff.mpr fun hin => ?_
          obtain ⟨mon, hmon, haddr⟩ := List.mem_map.mp hin
          exact Nat.lt_irrefl sv.nextAddr (haddr ▸ hbounded mon hmon)
        rw [hnone, Keyed.find_cons_self hnew]
        rfl
      · rw [Keyed.find_cons_ne fun h => hm (h.symm.trans hnew)]
  | trans h h₁ ih ih₁ =>
    obtain ⟨haccepted, hdiscarded, hmoves⟩ := ih hwf hplaced
    obtain ⟨haccepted₁, hdiscarded₁, hmoves₁⟩ := ih₁ (hwf.changes h) (hplaced.changes h)
    refine ⟨?_, ?_, fun a m => (hmoves a m).trans (hmoves₁ a m)⟩
    · rw [acceptedValues_append, haccepted, haccepted₁]
      rfl
    · rw [discardedValues_append, hdiscarded, hdiscarded₁]
      rfl

end Changes

/-- Everything that is known of the values after `n` steps. -/
structure Conserved (n : Nat) (sv : Server (Tagged V)) (log : List (Output (Tagged V))) : Prop where
  wellFormed : WellFormed sv
  placed : Placed sv
  sized : Sized sv
  /-- Values are accepted in the order of their steps. -/
  steps : (acceptedValues log).Pairwise fun v w => v.content.step < w.content.step
  before : ∀ v ∈ acceptedValues log, v.content.step < n
  /-- Of every monitored item, each value accepted is in one place. -/
  places : ∀ a m, ((acceptedValues log).filter (isFrom a m)).Perm
    (queueAt sv a m ++ (publishedValues log).filter (isFrom a m) ++
      (discardedValues log).filter (isFrom a m) ++ (deletedValues log).filter (isFrom a m))
  /-- Of every monitored item, the values published and queued are in order. -/
  order : ∀ a m, ((publishedValues log).filter (isFrom a m) ++ queueAt sv a m).Pairwise
    fun v w => v.content.step < w.content.step

section Conserved

variable {n : Nat} {sv sv' : Server (Tagged V)} {log outputs : List (Output (Tagged V))}

omit [Inhabited V] in
theorem conserved_init (timeout clock : Int) :
    Conserved 0 (Server.init timeout clock : Server (Tagged V)) [] where
  wellFormed := wellFormed_init timeout clock
  placed _ h := nomatch h
  sized _ h := nomatch h
  steps := .nil
  before _ h := nomatch h
  places _ _ := .nil
  order _ _ := .nil

theorem Conserved.changes (h : Conserved n sv log) (hch : Changes config sv outputs sv') :
    Conserved (n + 1) sv' (log ++ outputs) := by
  obtain ⟨haccepted, hdiscarded, hmoves⟩ := hch.moves h.wellFormed h.placed
  refine ⟨h.wellFormed.changes hch, h.placed.changes hch, h.sized.changes hch, ?_, ?_, ?_, ?_⟩
  · rw [acceptedValues_append, haccepted, List.append_nil]
    exact h.steps
  · rw [acceptedValues_append, haccepted, List.append_nil]
    exact fun v hv => Nat.lt_succ_of_lt (h.before v hv)
  · intro a m
    obtain ⟨rest, hsplit, hrest⟩ := hmoves a m
    have hplaces := h.places a m
    rw [← hsplit] at hplaces
    rw [acceptedValues_append, haccepted, discardedValues_append, hdiscarded,
      publishedValues_append, deletedValues_append]
    rw [← Multiset.coe_eq_coe] at hplaces hrest ⊢
    simp only [List.filter_append, List.append_nil, ← Multiset.coe_add] at hplaces ⊢
    rw [hplaces, hrest]
    abel
  · intro a m
    obtain ⟨rest, hsplit, -⟩ := hmoves a m
    have horder := h.order a m
    rw [← hsplit] at horder
    rw [publishedValues_append, List.filter_append, List.append_assoc]
    refine horder.sublist ?_
    exact List.Sublist.append_left (List.sublist_append_left _ rest) _

omit [Inhabited V] in
theorem queueAt_sample {sub : Subscription V} {mon : MonitoredItem V}
    (mon' : MonitoredItem V) {sv : Server V} (hsub : subscriptionAt sv a = some sub)
    (hmon : Keyed.find MonitoredItem.addr sub.monitoredItems m = some mon) (haddr : mon'.addr = m)
    (b k : Nat) :
    queueAt (sv.modifySubscription a (Subscription.setMonitoredItem m mon')) b k =
      if b = a ∧ k = m then mon'.queue.map QueuedValue.value else queueAt sv b k := by
  have hkeep : ∀ sub, sub.addr = a → (Subscription.setMonitoredItem m mon' sub).addr = a :=
    fun _ h => h
  by_cases hb : b = a
  · subst hb
    have hself := subscriptionAt_modifySubscription_self sv hkeep
    rw [hsub] at hself
    rw [queueAt_of_some hself, queueAt_of_some hsub]
    unfold itemQueue Subscription.setMonitoredItem
    dsimp only
    by_cases hk : k = m
    · subst hk
      rw [Keyed.find_modify_self fun _ _ => haddr, hmon, if_pos ⟨rfl, rfl⟩]
      rfl
    · rw [Keyed.find_modify_ne (fun _ _ => haddr) hk, if_neg fun h => hk h.2]
  · rw [if_neg fun h => hb h.1]
    exact queueAt_congr (subscriptionAt_modifySubscription_ne hkeep hb) k

omit [Inhabited V] in
theorem values_sample (a m : Nat) (discarded : List (QueuedValue V)) (value : DataValue V) :
    let outputs := discarded.map (Output.discarded a m) ++ [Output.accepted a m value]
    acceptedValues outputs = [value] ∧ publishedValues outputs = [] ∧
      discardedValues outputs = discarded.map QueuedValue.value ∧ deletedValues outputs = [] := by
  induction discarded with
  | nil => exact ⟨rfl, rfl, rfl, rfl⟩
  | cons qv discarded ih =>
    obtain ⟨h₁, h₂, h₃, h₄⟩ := ih
    exact ⟨h₁, h₂, congrArg (qv.value :: ·) h₃, h₄⟩

omit [Inhabited V] in
theorem Conserved.idle (h : Conserved n sv log) (hwf : WellFormed sv') (hplaced : Placed sv')
    (hsized : Sized sv') (hqueue : ∀ a m, queueAt sv' a m = queueAt sv a m) :
    Conserved (n + 1) sv' (log ++ []) := by
  rw [List.append_nil]
  refine ⟨hwf, hplaced, hsized, h.steps, fun v hv => Nat.lt_succ_of_lt (h.before v hv), ?_, ?_⟩
  · intro a m
    rw [hqueue]
    exact h.places a m
  · intro a m
    rw [hqueue]
    exact h.order a m

omit [Inhabited V] in
theorem Conserved.step_lt (h : Conserved n sv log) {v : DataValue (Tagged V)}
    (hv : v ∈ (publishedValues log).filter (isFrom a m) ++ queueAt sv a m) :
    v.content.step < n := by
  have hplace : v ∈ (acceptedValues log).filter (isFrom a m) := by
    rw [(h.places a m).mem_iff]
    simp only [List.mem_append] at hv ⊢
    tauto
  exact h.before v (List.mem_of_mem_filter hplace)

omit [Inhabited V] in
theorem Placed.sample {enc : Encoder (Tagged V)} {alloc : SampleAllocs}
    {value : DataValue (Tagged V)} {sub : Subscription (Tagged V)}
    {mon : MonitoredItem (Tagged V)} {sampled : Sampled (Tagged V)} (h : Placed sv)
    (hfrom : isFrom a m value = true) (hsub : subscriptionAt sv a = some sub)
    (hmon : Keyed.find MonitoredItem.addr sub.monitoredItems m = some mon)
    (hsampled : sampleCallbackWithValue enc alloc mon value = .ok sampled) :
    Placed (sv.modifySubscription a (Subscription.setMonitoredItem m sampled.mon)) := by
  apply AllItems.setMonitoredItem h
  have hold := h sub (Keyed.mem_of_find hsub) mon (Keyed.mem_of_find hmon)
  rw [Keyed.key_of_find hsub] at hold
  rw [addr_of_sampled hsampled]
  obtain ⟨heq, -⟩ | ⟨-, queue, -, -, hqueue, hkept⟩ := sampleCallbackWithValue_cases hsampled
  · rw [heq]
    exact hold
  · intro qv hqv
    rw [hqueue] at hqv
    obtain hqv | hqv := List.mem_append.mp hqv
    · apply hold
      obtain ⟨heq, -⟩ | ⟨x, -, -, -, heq | heq⟩ := hkept
      · exact heq ▸ hqv
      · exact heq ▸ List.mem_cons_of_mem x hqv
      · exact heq ▸ List.mem_append_left [x] hqv
    · rw [List.mem_singleton.mp hqv, Keyed.key_of_find hmon]
      exact hfrom

omit [Inhabited V] in
theorem Conserved.accept {value : DataValue (Tagged V)}
    {discarded : List (DataValue (Tagged V))} (h : Conserved n sv log)
    (kept : List (DataValue (Tagged V)))
    (hwf : WellFormed sv') (hplaced : Placed sv') (hsized : Sized sv')
    (hstep : value.content.step = n)
    (hfrom : isFrom a m value = true)
    (hqueue : ∀ b k, queueAt sv' b k = if b = a ∧ k = m then kept ++ [value] else queueAt sv b k)
    (hkept : kept.Sublist (queueAt sv a m)) (hperm : (queueAt sv a m).Perm (kept ++ discarded))
    (hdiscarded : ∀ v ∈ discarded, isFrom a m v = true)
    (houtputs : acceptedValues outputs = [value] ∧ publishedValues outputs = [] ∧
      discardedValues outputs = discarded ∧ deletedValues outputs = []) :
    Conserved (n + 1) sv' (log ++ outputs) := by
  obtain ⟨haccepted, hpublished, hdisc, hdeleted⟩ := houtputs
  -- a value of this item is of no other one
  have hother : ∀ b k, ¬ (b = a ∧ k = m) → ∀ v : DataValue (Tagged V),
      isFrom a m v = true → ¬ isFrom b k v = true := by
    intro b k hne v hv hv'
    simp only [isFrom, decide_eq_true_eq] at hv hv'
    exact hne ⟨hv'.1.symm.trans hv.1, hv'.2.symm.trans hv.2⟩
  refine ⟨hwf, hplaced, hsized, ?_, ?_, ?_, ?_⟩
  · rw [acceptedValues_append, haccepted, List.pairwise_append]
    refine ⟨h.steps, List.pairwise_singleton _ _, ?_⟩
    intro v hv w hw
    rw [List.mem_singleton.mp hw, hstep]
    exact h.before v hv
  · intro v hv
    rw [acceptedValues_append, haccepted] at hv
    obtain hv | hv := List.mem_append.mp hv
    · exact Nat.lt_succ_of_lt (h.before v hv)
    · rw [List.mem_singleton.mp hv, hstep]
      exact Nat.lt_succ_self n
  · intro b k
    have hplaces := h.places b k
    rw [acceptedValues_append, haccepted, publishedValues_append, hpublished,
      discardedValues_append, hdisc, deletedValues_append, hdeleted, hqueue]
    by_cases hbk : b = a ∧ k = m
    · obtain ⟨rfl, rfl⟩ := hbk
      rw [if_pos ⟨rfl, rfl⟩]
      have hall : discarded.filter (isFrom b k) = discarded := List.filter_eq_self.mpr hdiscarded
      have hone : [value].filter (isFrom b k) = [value] := List.filter_eq_self.mpr (by simpa)
      rw [← Multiset.coe_eq_coe] at hplaces hperm ⊢
      simp only [List.filter_append, List.append_nil, hall, hone, ← Multiset.coe_add]
        at hplaces hperm ⊢
      rw [hplaces, hperm]
      abel
    · rw [if_neg hbk]
      have hnone : discarded.filter (isFrom b k) = [] :=
        List.filter_eq_nil_iff.mpr fun v hv => hother b k hbk v (hdiscarded v hv)
      have hnone' : [value].filter (isFrom b k) = [] :=
        List.filter_eq_nil_iff.mpr (by simpa using hother b k hbk value hfrom)
      simp only [List.filter_append, List.append_nil, hnone, hnone']
      exact hplaces
  · intro b k
    rw [publishedValues_append, hpublished, List.append_nil, hqueue]
    by_cases hbk : b = a ∧ k = m
    · obtain ⟨rfl, rfl⟩ := hbk
      rw [if_pos ⟨rfl, rfl⟩, ← List.append_assoc, List.pairwise_append]
      have hsub := List.Sublist.append_left hkept ((publishedValues log).filter (isFrom b k))
      refine ⟨(h.order b k).sublist hsub, List.pairwise_singleton _ _, ?_⟩
      intro v hv w hw
      rw [List.mem_singleton.mp hw, hstep]
      exact h.step_lt (hsub.subset hv)
    · rw [if_neg hbk]
      exact h.order b k

omit [Inhabited V] in
theorem Conserved.sample {enc : Encoder (Tagged V)} {alloc : SampleAllocs}
    {value : DataValue (Tagged V)} (h : Conserved n sv log) (hstep : value.content.step = n)
    (hfrom : isFrom a m value = true)
    (hsample : sampleCallback sv enc a m alloc value = .ok (sv', outputs)) :
    Conserved (n + 1) sv' (log ++ outputs) := by
  have hwf := h.wellFormed.sample hsample
  have hsized := h.sized.sample hsample
  obtain ⟨rfl, rfl⟩ | ⟨sub, mon, sampled, hsub, hmon, hsampled, rfl, rfl⟩ :=
    sampleCallback_cases hsample
  · exact h.idle hwf h.placed h.sized fun _ _ => rfl
  · have hplaced := h.placed.sample hfrom hsub hmon hsampled
    have haddr := (addr_of_sampled hsampled).trans (Keyed.key_of_find hmon)
    have hqueues := queueAt_sample sampled.mon hsub hmon haddr
    have hqueue : queueAt sv a m = mon.queue.map QueuedValue.value := by
      rw [queueAt_of_some hsub, itemQueue, hmon]
    have hown : ∀ qv ∈ mon.queue, isFrom a m qv.value = true := by
      have hitems := h.placed sub (Keyed.mem_of_find hsub) mon (Keyed.mem_of_find hmon)
      rwa [Keyed.key_of_find hsub, Keyed.key_of_find hmon] at hitems
    obtain ⟨heq, haccepted, hdiscarded⟩ | ⟨haccepted, queue, -, -, hnew, hkept⟩ :=
      sampleCallbackWithValue_cases hsampled
    · rw [hdiscarded, haccepted]
      refine h.idle hwf hplaced hsized fun b k => ?_
      rw [hqueues, heq]
      split
      · rename_i hbk
        rw [hbk.1, hbk.2, hqueue]
      · rfl
    · rw [haccepted, if_pos rfl]
      refine h.accept (queue.map QueuedValue.value) hwf hplaced hsized hstep hfrom ?_ ?_ ?_ ?_
        (values_sample a m sampled.discarded value)
      · intro b k
        rw [hqueues, hnew, List.map_append]
        rfl
      · rw [hqueue]
        apply List.Sublist.map
        obtain ⟨rfl, -⟩ | ⟨qv, -, -, -, hsplit | hsplit⟩ := hkept
        · exact .refl _
        · exact hsplit ▸ List.sublist_cons_self qv queue
        · exact hsplit ▸ List.sublist_append_left queue [qv]
      · rw [hqueue, ← List.map_append]
        apply List.Perm.map
        obtain ⟨rfl, hdisc, -⟩ | ⟨qv, hdisc, -, -, hsplit | hsplit⟩ := hkept
        · rw [hdisc, List.append_nil]
        · rw [hdisc, hsplit]
          exact (List.perm_append_singleton qv queue).symm
        · rw [hdisc, hsplit]
      · intro v hv
        obtain ⟨qv', hqv', rfl⟩ := List.mem_map.mp hv
        apply hown
        obtain ⟨-, hdisc, -⟩ | ⟨qv, hdisc, -, -, hsplit⟩ := hkept
        · rw [hdisc] at hqv'
          exact nomatch hqv'
        · rw [hdisc, List.mem_singleton] at hqv'
          subst hqv'
          obtain hsplit | hsplit := hsplit
          · rw [hsplit]
            exact List.mem_cons_self
          · rw [hsplit]
            exact List.mem_append_right queue List.mem_cons_self

end Conserved

theorem Conserved.step {s s' : Nat × Server (Tagged V)} {log outputs : List (Output (Tagged V))}
    {enc : Encoder V} {e : Event V} (h : Conserved s.1 s.2 log)
    (hstep : taggedStep config enc s e = .ok (s', outputs)) :
    Conserved s'.1 s'.2 (log ++ outputs) := by
  unfold taggedStep at hstep
  split at hstep
  · cases hstep
  · rename_i sv' outputs' hrun
    cases hstep
    cases e with
    | sample a m alloc value => exact h.sample rfl (by simp [isFrom, DataValue.map]) hrun
    | _ => exact h.changes (step_changes h.wellFormed (fun _ _ _ _ he => by cases he) hrun)

/-- The places the values accepted for a monitored item can be in: its queue, the published
messages, the values discarded for want of room and those deleted with the subscription. -/
def placesOf (sv : Server (Tagged V)) (log : List (Output (Tagged V))) (a m : Nat) :
    List (DataValue (Tagged V)) :=
  queueAt sv a m ++ (publishedValues log).filter (isFrom a m) ++
    (discardedValues log).filter (isFrom a m) ++ (deletedValues log).filter (isFrom a m)

omit [Inhabited V] in
theorem Conserved.nodup {n : Nat} {sv : Server (Tagged V)} {log : List (Output (Tagged V))}
    (h : Conserved n sv log) (a m : Nat) : (placesOf sv log a m).Nodup := by
  have hsteps := h.steps.sublist (List.filter_sublist (p := isFrom a m))
  have hnodup : ((acceptedValues log).filter (isFrom a m)).Nodup :=
    hsteps.imp fun {v w} hlt heq => by
      subst heq
      exact Nat.lt_irrefl _ hlt
  exact (h.places a m).nodup_iff.mp hnodup

/-- Conservation, for every run of the machine. Of each monitored item the values accepted are, each
once, in its queue, in the published messages, among those discarded when the queue was full, or
among those that went with the subscription; those published are in the order of sampling. Every
publish callback sends what is queued page by page. -/
theorem notifications_conserved (config : Config) (enc : Encoder V) (timeout clock : Int)
    (es : List (Event V)) {n : Nat} {sv : Server (Tagged V)}
    {replies : List (List (Output (Tagged V)))}
    (hrun : Runs.run (taggedStep config enc) (0, Server.init timeout clock) es =
      .ok ((n, sv), replies)) :
    (∀ a m, ((acceptedValues replies.flatten).filter (isFrom a m)).Perm
        (placesOf sv replies.flatten a m) ∧ (placesOf sv replies.flatten a m).Nodup) ∧
      (∀ a m, ((publishedValues replies.flatten).filter (isFrom a m)).Pairwise
        fun v w => v.content.step < w.content.step) ∧
      (∀ sub ∈ sv.serverSubscriptions, ∀ mon ∈ sub.monitoredItems, ∀ alloc value sampled,
        sampleCallbackWithValue enc.tagged alloc mon value = .ok sampled →
          sampled.discarded ≠ [] → mon.maxQueueSize.toNat ≤ mon.queue.length) ∧
      ∀ (sub : Subscription (Tagged V)) channel turns responseQueue,
        let published := publishCallback config.maxRetransmissionQueueSize channel turns sub
          responseQueue
        Paged sub.publishingEnabled sub.limit sub.values published.sent published.sub.values := by
  have hall : Conserved n sv (([] : List (List (Output (Tagged V)))) ++ replies).flatten := by
    refine Runs.history_of_guarded (fun s past => Conserved s.1 s.2 past.flatten) ?_ es
      (0, Server.init timeout clock) (n, sv) [] replies (conserved_init timeout clock)
      (Runs.guarded_true _ es) hrun
    intro s past e s' outputs h _ hstep
    rw [List.flatten_concat]
    exact h.step hstep
  rw [List.nil_append] at hall
  refine ⟨fun a m => ⟨hall.places a m, hall.nodup a m⟩, ?_, ?_, ?_⟩
  · intro a m
    exact (List.pairwise_append.mp (hall.order a m)).1
  · intro sub hsub mon hmon alloc value sampled hsampled hdisc
    exact discarded_of_full (hall.sized sub hsub mon hmon) hsampled hdisc
  · intro sub channel turns responseQueue
    exact publishCallback_paged config channel responseQueue turns sub

section Witnesses

/-- In a run whose subscription publishes a value, the value is in one place. -/
theorem notifications_conserved_published :
    ∃ n sv replies,
      Runs.run (taggedStep standardConfig byteEncoder) (0, Server.init 100 0)
          (sampledOnce true ++ [.publish ⟨5, 6, []⟩ ⟨true, true⟩ granted,
            .publishCallback 1 granted]) = .ok ((n, sv), replies) ∧
        (publishedValues replies.flatten).length = 1 ∧
        (placesOf sv replies.flatten 1 2).Nodup := by
  have hreaches : Runs.Reaches (taggedStep standardConfig byteEncoder) (0, Server.init 100 0)
      (sampledOnce true ++ [.publish ⟨5, 6, []⟩ ⟨true, true⟩ granted, .publishCallback 1 granted])
      fun _ replies => (publishedValues replies.flatten).length = 1 := by decide +kernel
  obtain ⟨⟨n, sv⟩, replies, hrun, hone⟩ := hreaches
  exact ⟨n, sv, replies, hrun, hone,
    ((notifications_conserved standardConfig byteEncoder 100 0 _ hrun).1 1 2).2⟩

/-- A publish callback that ends the lifetime of its subscription takes the values queued in it
along. With publishing disabled a keep-alive says that there is nothing more, whatever is queued. -/
theorem notifications_not_conserved :
    (¬ ∀ (es : List (Event Nat)) n sv replies,
      Runs.run (taggedStep standardConfig byteEncoder) (0, Server.init 100 0) es =
        .ok ((n, sv), replies) →
      ∀ value ∈ acceptedValues replies.flatten,
        value ∈ queueAt sv value.content.sub value.content.mon ∨
          value ∈ publishedValues replies.flatten ∨ value ∈ discardedValues replies.flatten) ∧
    ¬ ∀ (es : List (Event Nat)) n sv replies,
      Runs.run (taggedStep standardConfig byteEncoder) (0, Server.init 100 0) es =
        .ok ((n, sv), replies) →
      ∀ sub ∈ sv.serverSubscriptions,
        let published := publishCallback standardConfig.maxRetransmissionQueueSize sv.channel
          granted sub sv.responseQueue
        ∀ response ∈ published.sent.getLast?,
          (response.moreNotifications = true ↔ published.sub.values ≠ []) := by
  constructor
  · intro h
    have hreaches : Runs.Reaches (taggedStep standardConfig byteEncoder) (0, Server.init 100 0)
        (sampledOnce true ++ List.replicate 5 (.publishCallback 1 granted))
        fun s replies => ¬ ∀ value ∈ acceptedValues replies.flatten,
          value ∈ queueAt s.2 value.content.sub value.content.mon ∨
            value ∈ publishedValues replies.flatten ∨ value ∈ discardedValues replies.flatten := by
      decide +kernel
    obtain ⟨⟨n, sv⟩, replies, hrun, hlost⟩ := hreaches
    exact hlost (h _ n sv replies hrun)
  · intro h
    have hreaches : Runs.Reaches (taggedStep standardConfig byteEncoder) (0, Server.init 100 0)
        (sampledOnce false ++ [.publish ⟨5, 6, []⟩ ⟨true, true⟩ granted])
        fun s _ => ¬ ∀ sub ∈ s.2.serverSubscriptions,
          let published := publishCallback standardConfig.maxRetransmissionQueueSize s.2.channel
            granted sub s.2.responseQueue
          ∀ response ∈ published.sent.getLast?,
            (response.moreNotifications = true ↔ published.sub.values ≠ []) := by
      decide +kernel
    obtain ⟨⟨n, sv⟩, replies, hrun, hmore⟩ := hreaches
    exact hmore (h _ n sv replies hrun)

end Witnesses

end FactoryThing.Subscriptions
