import FactoryThing.Subscriptions.Session

/-!
# What a step can do to the subscriptions

Every step of the machine is a sample of one monitored item, or it is composed of a few changes:
a message is published, acknowledged or republished, a subscription is created, deleted or gets
a monitored item, or nothing but counters and fields outside the subscriptions change. What holds of
whole runs is proved change by change.
-/

namespace FactoryThing.Subscriptions

variable {V : Type}

/-- Outputs that say nothing about a subscription. -/
def Output.Elsewhere : Output V → Prop
  | .requested .. | .queued _ | .refused _ | .drained _ => True
  | _ => False

/-- Only counters and the state of the subscription differ. -/
structure Settled (sub sub' : Subscription V) : Prop where
  addr : sub'.addr = sub.addr
  subscriptionID : sub'.subscriptionID = sub.subscriptionID
  sequenceNumber : sub'.sequenceNumber = sub.sequenceNumber
  monitoredItems : sub'.monitoredItems = sub.monitoredItems
  retransmissionQueue : sub'.retransmissionQueue = sub.retransmissionQueue
  retransmissionQueueSize : sub'.retransmissionQueueSize = sub.retransmissionQueueSize

/-- The subscription with a new monitored item at an address. -/
def Subscription.addMonitoredItem (config : Config) (params : MonitoringParameters) (addr : Nat)
    (sub : Subscription V) : Subscription V :=
  { sub with
    lastMonitoredItemId := sub.lastMonitoredItemId + 1
    monitoredItems :=
      newMonitoredItem config params addr (sub.lastMonitoredItemId + 1) :: sub.monitoredItems }

/-- A publish callback of the subscription that sends a response. -/
def answered [Inhabited V] (config : Config) (channel : Nat) (pre : PublishResponseEntry)
    (turn : Turn) (sub : Subscription V) : Subscription V × PublishResponse V :=
  setUpResponse sub config.maxRetransmissionQueueSize channel pre turn
    (countQueuedNotifications sub).1 (countQueuedNotifications sub).2

def subscriptionAt (sv : Server V) (a : Nat) : Option (Subscription V) :=
  Keyed.find Subscription.addr sv.serverSubscriptions a

/-- The changes, with what is seen of them. -/
inductive Changes [Inhabited V] (config : Config) : Server V → List (Output V) → Server V → Prop
  | frame {sv sv' : Server V} {outputs : List (Output V)}
      (hsubs : sv'.serverSubscriptions = sv.serverSubscriptions)
      (hnext : sv.nextAddr ≤ sv'.nextAddr) (hout : ∀ o ∈ outputs, o.Elsewhere) :
      Changes config sv outputs sv'
  | settle (sv : Server V) (a : Nat) {f : Subscription V → Subscription V}
      (hf : ∀ sub, Settled sub (f sub)) : Changes config sv [] (sv.modifySubscription a f)
  | publish (sv : Server V) {a : Nat} {sub : Subscription V} (channel : Nat)
      (pre : PublishResponseEntry) (turn : Turn)
      (hsub : subscriptionAt sv a = some sub) :
      Changes config sv [.published a (answered config channel pre turn sub).2]
        (sv.modifySubscription a fun _ => (answered config channel pre turn sub).1)
  | acknowledge (sv : Server V) {a : Nat} {sub : Subscription V} (sequenceNumber : UInt32)
      (hsub : subscriptionAt sv a = some sub) :
      Changes config sv
        [.acknowledged a sequenceNumber (removeRetransmissionMessage sub sequenceNumber).2]
        (sv.modifySubscription a fun sub => (removeRetransmissionMessage sub sequenceNumber).1)
  | republish (sv : Server V) {a : Nat} {sub : Subscription V} (sequenceNumber : UInt32)
      (copied : Bool) (hsub : subscriptionAt sv a = some sub) :
      Changes config sv [.republished a sequenceNumber (republishAnswer sub sequenceNumber copied)]
        sv
  | delete (sv : Server V) {subscriptionID : UInt32} {sub : Subscription V}
      (hsub : getSubscriptionByID sv subscriptionID = some sub) :
      Changes config sv [.deleted sub]
        { sv with
          serverSubscriptions :=
            Keyed.remove Subscription.subscriptionID sv.serverSubscriptions subscriptionID }
  | createSubscription (sv : Server V) (settings : SubscriptionSettings) (subscriptionID : UInt32) :
      Changes config sv []
        { sv with
          nextAddr := sv.nextAddr + 1
          serverSubscriptions :=
            newSubscription config settings sv.nextAddr subscriptionID :: sv.serverSubscriptions }
  | createMonitoredItem (sv : Server V) (a : Nat) (params : MonitoringParameters) :
      Changes config sv []
        ({ sv with nextAddr := sv.nextAddr + 1 }.modifySubscription a
          (Subscription.addMonitoredItem config params sv.nextAddr))
  | trans {sv sv₁ sv₂ : Server V} {outputs outputs₁ : List (Output V)}
      (h : Changes config sv outputs sv₁) (h₁ : Changes config sv₁ outputs₁ sv₂) :
      Changes config sv (outputs ++ outputs₁) sv₂

/-- No two subscriptions and no two monitored items of one have the same address, and all addresses
have been handed out. -/
structure WellFormed (sv : Server V) : Prop where
  nodup : (sv.serverSubscriptions.map Subscription.addr).Nodup
  bounded : ∀ sub ∈ sv.serverSubscriptions, sub.addr < sv.nextAddr
  items_nodup : ∀ sub ∈ sv.serverSubscriptions, (sub.monitoredItems.map MonitoredItem.addr).Nodup
  items_bounded : ∀ sub ∈ sv.serverSubscriptions, ∀ mon ∈ sub.monitoredItems,
    mon.addr < sv.nextAddr

/-- Something holds of every monitored item, given the address of its subscription. -/
def AllItems (P : Nat → MonitoredItem V → Prop) (sv : Server V) : Prop :=
  ∀ sub ∈ sv.serverSubscriptions, ∀ mon ∈ sub.monitoredItems, P sub.addr mon

variable {config : Config} {sv sv' : Server V} {outputs : List (Output V)}

theorem wellFormed_init (timeout clock : Int) :
    WellFormed (Server.init timeout clock : Server V) where
  nodup := List.nodup_nil
  bounded _ h := nomatch h
  items_nodup _ h := nomatch h
  items_bounded _ h := nomatch h

variable {a : Nat} {sub : Subscription V} {subscriptionID : UInt32}
  {f : Subscription V → Subscription V} {b : Nat}

theorem addr_of_find (h : subscriptionAt sv a = some sub) :
    sub.addr = a := Keyed.key_of_find h

theorem WellFormed.find_addr (h : WellFormed sv)
    (hsub : getSubscriptionByID sv subscriptionID = some sub) :
    subscriptionAt sv sub.addr = some sub :=
  Keyed.find_of_mem h.nodup (Keyed.mem_of_find hsub)

theorem WellFormed.congr (h : WellFormed sv) (hsubs : sv'.serverSubscriptions =
    sv.serverSubscriptions)
    (hnext : sv.nextAddr ≤ sv'.nextAddr) : WellFormed sv' where
  nodup := hsubs ▸ h.nodup
  bounded sub hmem := Nat.lt_of_lt_of_le (h.bounded sub (hsubs ▸ hmem)) hnext
  items_nodup sub hmem := h.items_nodup sub (hsubs ▸ hmem)
  items_bounded sub hmem mon hmon :=
    Nat.lt_of_lt_of_le (h.items_bounded sub (hsubs ▸ hmem) mon hmon) hnext

theorem WellFormed.modifySubscription (h : WellFormed sv) {a : Nat}
    {f : Subscription V → Subscription V}
    (haddr : ∀ sub, sub.addr = a → (f sub).addr = a)
    (hitems : ∀ sub, subscriptionAt sv a = some sub →
      ((f sub).monitoredItems.map MonitoredItem.addr).Nodup ∧
        ∀ mon ∈ (f sub).monitoredItems, mon.addr < sv.nextAddr) :
    WellFormed (sv.modifySubscription a f) := by
  constructor
  · have hmap := Keyed.map_key_modify haddr sv.serverSubscriptions
    exact hmap ▸ h.nodup
  · intro sub hmem
    obtain hmem | ⟨sub, hfind, rfl⟩ := Keyed.mem_modify hmem
    · exact h.bounded sub hmem
    · have hlt := h.bounded sub (Keyed.mem_of_find hfind)
      rw [Keyed.key_of_find hfind] at hlt
      exact (haddr sub (Keyed.key_of_find hfind)).symm ▸ hlt
  · intro sub hmem
    obtain hmem | ⟨sub, hfind, rfl⟩ := Keyed.mem_modify hmem
    · exact h.items_nodup sub hmem
    · exact (hitems sub hfind).1
  · intro sub hmem
    obtain hmem | ⟨sub, hfind, rfl⟩ := Keyed.mem_modify hmem
    · exact h.items_bounded sub hmem
    · exact (hitems sub hfind).2

theorem WellFormed.modify_of_map_addr (h : WellFormed sv) {a : Nat}
    {f : Subscription V → Subscription V}
    (haddr : ∀ sub, sub.addr = a → (f sub).addr = a)
    (hitems : ∀ sub, subscriptionAt sv a = some sub →
      (f sub).monitoredItems.map MonitoredItem.addr =
        sub.monitoredItems.map MonitoredItem.addr) :
    WellFormed (sv.modifySubscription a f) := by
  apply h.modifySubscription haddr
  intro sub hsub
  have hmem := Keyed.mem_of_find hsub
  rw [hitems sub hsub]
  refine ⟨h.items_nodup sub hmem, ?_⟩
  intro mon hmon
  have haddrs := List.mem_map_of_mem (f := MonitoredItem.addr) hmon
  rw [hitems sub hsub] at haddrs
  obtain ⟨mon', hmon', heq⟩ := List.mem_map.mp haddrs
  exact heq ▸ h.items_bounded sub hmem mon' hmon'

/-! ## The subscription after a change -/

theorem subscriptionAt_modifySubscription_self (sv : Server V)
    (haddr : ∀ sub, sub.addr = a → (f sub).addr = a) :
    subscriptionAt (sv.modifySubscription a f) a = (subscriptionAt sv a).map f :=
  Keyed.find_modify_self haddr sv.serverSubscriptions

theorem subscriptionAt_modifySubscription_ne (haddr : ∀ sub, sub.addr = a → (f sub).addr = a)
    (hne : b ≠ a) : subscriptionAt (sv.modifySubscription a f) b = subscriptionAt sv b :=
  Keyed.find_modify_ne haddr hne sv.serverSubscriptions

theorem modifySubscription_congr {g : Subscription V → Subscription V}
    (h : ∀ sub, subscriptionAt sv a = some sub → f sub = g sub) :
    sv.modifySubscription a f = sv.modifySubscription a g := by
  unfold Server.modifySubscription
  rw [Keyed.modify_congr h]

theorem modifySubscription_modifySubscription {g : Subscription V → Subscription V}
    (haddr : ∀ sub, sub.addr = a → (g sub).addr = a) :
    (sv.modifySubscription a g).modifySubscription a f =
      sv.modifySubscription a fun sub => f (g sub) := by
  unfold Server.modifySubscription
  rw [Keyed.modify_modify haddr]

theorem subscriptionAt_remove_self (hwf : WellFormed sv)
    (hsub : getSubscriptionByID sv subscriptionID = some sub) :
    subscriptionAt { sv with
      serverSubscriptions :=
        Keyed.remove Subscription.subscriptionID sv.serverSubscriptions subscriptionID }
      sub.addr = none :=
  Keyed.find_eraseP_self hwf.nodup hsub

theorem subscriptionAt_remove_ne (hsub : getSubscriptionByID sv subscriptionID = some sub)
    (hne : sub.addr ≠ b) :
    subscriptionAt { sv with
      serverSubscriptions :=
        Keyed.remove Subscription.subscriptionID sv.serverSubscriptions subscriptionID } b =
      subscriptionAt sv b :=
  Keyed.find_eraseP_ne hsub hne

theorem WellFormed.subscriptionAt_nextAddr (hwf : WellFormed sv) :
    subscriptionAt sv sv.nextAddr = none := by
  refine Keyed.find_eq_none_iff.mpr fun hin => ?_
  obtain ⟨sub, hmem, haddr⟩ := List.mem_map.mp hin
  exact Nat.lt_irrefl sv.nextAddr (haddr ▸ hwf.bounded sub hmem)

theorem subscriptionAt_cons_self (sv : Server V) (sub : Subscription V) :
    subscriptionAt { sv with
      nextAddr := sv.nextAddr + 1
      serverSubscriptions := sub :: sv.serverSubscriptions } sub.addr = some sub :=
  Keyed.find_cons_self rfl

theorem subscriptionAt_cons_ne (hne : sub.addr ≠ b) :
    subscriptionAt { sv with
      nextAddr := sv.nextAddr + 1
      serverSubscriptions := sub :: sv.serverSubscriptions } b = subscriptionAt sv b :=
  Keyed.find_cons_ne hne

section Publishing

variable [Inhabited V]

theorem addr_answered (config : Config) (channel : Nat) (pre : PublishResponseEntry) (turn : Turn)
    (sub : Subscription V) : (answered config channel pre turn sub).1.addr = sub.addr := by
  unfold answered setUpResponse prepareNotificationMessage addRetransmissionMessage
  dsimp only
  split
  · split <;> rfl
  · rfl

theorem map_addr_answered (config : Config) (channel : Nat) (pre : PublishResponseEntry)
    (turn : Turn) (sub : Subscription V) :
    (answered config channel pre turn sub).1.monitoredItems.map MonitoredItem.addr =
      sub.monitoredItems.map MonitoredItem.addr := by
  unfold answered setUpResponse prepareNotificationMessage addRetransmissionMessage
  dsimp only
  split
  · split <;> exact map_addr_moveItems _ _ _
  · rfl

omit [Inhabited V] in
theorem removeRetransmissionMessage_frame (sub : Subscription V) (sequenceNumber : UInt32) :
    let sub' := (removeRetransmissionMessage sub sequenceNumber).1
    sub'.addr = sub.addr ∧ sub'.subscriptionID = sub.subscriptionID ∧
      sub'.sequenceNumber = sub.sequenceNumber ∧ sub'.monitoredItems = sub.monitoredItems := by
  unfold removeRetransmissionMessage
  split <;> exact ⟨rfl, rfl, rfl, rfl⟩

theorem WellFormed.changes (h : WellFormed sv) (hch : Changes config sv outputs sv') :
    WellFormed sv' := by
  induction hch with
  | frame hsubs hnext _ => exact h.congr hsubs hnext
  | settle sv a hf =>
    apply h.modify_of_map_addr
    · intro sub haddr
      exact (hf sub).addr.trans haddr
    · intro sub _
      rw [(hf sub).monitoredItems]
  | publish sv channel pre turn hsub =>
    apply h.modify_of_map_addr
    · intro _ _
      exact (addr_answered config channel pre turn _).trans (addr_of_find hsub)
    · intro sub hsub'
      rw [hsub, Option.some.injEq] at hsub'
      rw [map_addr_answered, hsub']
  | acknowledge sv sequenceNumber hsub =>
    apply h.modify_of_map_addr
    · intro sub haddr
      exact (removeRetransmissionMessage_frame sub sequenceNumber).1.trans haddr
    · intro sub _
      rw [(removeRetransmissionMessage_frame sub sequenceNumber).2.2.2]
  | republish sv sequenceNumber copied hsub => exact h
  | delete sv hsub =>
    exact {
      nodup := h.nodup.sublist (List.eraseP_sublist.map _)
      bounded := fun sub hmem => h.bounded sub (List.mem_of_mem_eraseP hmem)
      items_nodup := fun sub hmem => h.items_nodup sub (List.mem_of_mem_eraseP hmem)
      items_bounded := fun sub hmem => h.items_bounded sub (List.mem_of_mem_eraseP hmem) }
  | createSubscription sv settings subscriptionID =>
    constructor
    · refine List.nodup_cons.mpr ⟨?_, h.nodup⟩
      intro hmem
      obtain ⟨sub, hsub, haddr⟩ := List.mem_map.mp hmem
      exact Nat.lt_irrefl _ (haddr ▸ h.bounded sub hsub)
    · intro sub hmem
      obtain rfl | hmem := List.mem_cons.mp hmem
      · exact Nat.lt_succ_self _
      · exact Nat.lt_succ_of_lt (h.bounded sub hmem)
    · intro sub hmem
      obtain rfl | hmem := List.mem_cons.mp hmem
      · exact List.nodup_nil
      · exact h.items_nodup sub hmem
    · intro sub hmem mon hmon
      obtain rfl | hmem := List.mem_cons.mp hmem
      · exact nomatch hmon
      · exact Nat.lt_succ_of_lt (h.items_bounded sub hmem mon hmon)
  | createMonitoredItem sv a params =>
    have hnext : WellFormed { sv with nextAddr := sv.nextAddr + 1 } :=
      h.congr rfl (Nat.le_succ _)
    apply hnext.modifySubscription
    · exact fun _ haddr => haddr
    · intro sub hsub
      have hmem : sub ∈ sv.serverSubscriptions := Keyed.mem_of_find hsub
      refine ⟨List.nodup_cons.mpr ⟨?_, h.items_nodup sub hmem⟩, ?_⟩
      · intro hin
        obtain ⟨mon, hmon, haddr⟩ := List.mem_map.mp hin
        have hlt := h.items_bounded sub hmem mon hmon
        rw [haddr] at hlt
        exact Nat.lt_irrefl sv.nextAddr hlt
      · intro mon hmon
        obtain rfl | hmon := List.mem_cons.mp hmon
        · exact Nat.lt_succ_self _
        · exact Nat.lt_succ_of_lt (h.items_bounded sub hmem mon hmon)
  | trans _ _ ih ih₁ => exact ih₁ (ih h)

theorem monitoredItems_answered (config : Config) (channel : Nat) (pre : PublishResponseEntry)
    (turn : Turn) (sub : Subscription V) :
    (answered config channel pre turn sub).1.monitoredItems = sub.monitoredItems ∨
      (answered config channel pre turn sub).1.monitoredItems =
        (moveItems (countQueuedNotifications sub).1 0 sub.monitoredItems).2 := by
  unfold answered setUpResponse prepareNotificationMessage addRetransmissionMessage
  dsimp only
  split
  · split <;> exact Or.inr rfl
  · exact Or.inl rfl

omit [Inhabited V] in
theorem moveItems_all {P : MonitoredItem V → Prop}
    (hmove : ∀ mon k l, P mon → P { mon with
      queue := (moveQueue k l mon.queue).2
      currentQueueSize := mon.currentQueueSize - UInt32.ofNat (moveQueue k l mon.queue).1.length })
    {k l : Nat} {mons : List (MonitoredItem V)} (h : ∀ mon ∈ mons, P mon) :
    ∀ mon ∈ (moveItems k l mons).2, P mon := by
  induction mons generalizing l with
  | nil => exact h
  | cons mon mons ih =>
    have hhead := hmove mon k l (h mon List.mem_cons_self)
    have htail : ∀ mon ∈ mons, P mon := fun mon' hmon' => h mon' (List.mem_cons_of_mem mon hmon')
    unfold moveItems
    dsimp only
    split
    · intro mon' hmon'
      obtain rfl | hmon' := List.mem_cons.mp hmon'
      · exact hhead
      · exact ih htail mon' hmon'
    · intro mon' hmon'
      obtain rfl | hmon' := List.mem_cons.mp hmon'
      · exact hhead
      · exact htail mon' hmon'

theorem answered_all {P : MonitoredItem V → Prop}
    (hmove : ∀ mon k l, P mon → P { mon with
      queue := (moveQueue k l mon.queue).2
      currentQueueSize := mon.currentQueueSize - UInt32.ofNat (moveQueue k l mon.queue).1.length })
    (config : Config) (channel : Nat) (pre : PublishResponseEntry) (turn : Turn)
    {sub : Subscription V} (h : ∀ mon ∈ sub.monitoredItems, P mon) :
    ∀ mon ∈ (answered config channel pre turn sub).1.monitoredItems, P mon := by
  obtain heq | heq := monitoredItems_answered config channel pre turn sub
  · rw [heq]
    exact h
  · rw [heq]
    exact moveItems_all hmove h

omit [Inhabited V] in
theorem AllItems.modifySubscription {P : Nat → MonitoredItem V → Prop} (h : AllItems P sv) {a : Nat}
    {f : Subscription V → Subscription V} (haddr : ∀ sub, sub.addr = a → (f sub).addr = a)
    (hitems : ∀ sub, subscriptionAt sv a = some sub → (∀ mon ∈ sub.monitoredItems, P a mon) →
      ∀ mon ∈ (f sub).monitoredItems, P a mon) : AllItems P (sv.modifySubscription a f) := by
  intro sub hmem
  obtain hmem | ⟨sub, hfind, rfl⟩ := Keyed.mem_modify hmem
  · exact h sub hmem
  · have hsub := h sub (Keyed.mem_of_find hfind)
    rw [Keyed.key_of_find hfind] at hsub
    rw [haddr sub (Keyed.key_of_find hfind)]
    exact hitems sub hfind hsub

theorem Changes.allItems {P : Nat → MonitoredItem V → Prop}
    (hnew : ∀ a params n itemId, P a (newMonitoredItem config params n itemId))
    (hmove : ∀ a mon k l, P a mon → P a { mon with
      queue := (moveQueue k l mon.queue).2
      currentQueueSize := mon.currentQueueSize - UInt32.ofNat (moveQueue k l mon.queue).1.length })
    (hch : Changes config sv outputs sv') (h : AllItems P sv) : AllItems P sv' := by
  induction hch with
  | frame hsubs _ _ => exact fun sub hmem => h sub (hsubs ▸ hmem)
  | settle sv a hf =>
    apply h.modifySubscription fun sub haddr => (hf sub).addr.trans haddr
    intro sub _ hsub
    rw [(hf sub).monitoredItems]
    exact hsub
  | @publish sv a sub channel pre turn hsub =>
    apply h.modifySubscription
    · intro _ _
      exact (addr_answered config channel pre turn sub).trans (addr_of_find hsub)
    · intro sub' hsub' hitems
      rw [hsub, Option.some.injEq] at hsub'
      subst hsub'
      exact answered_all (hmove a) config channel pre turn hitems
  | acknowledge sv sequenceNumber hsub =>
    have hframe := fun sub => removeRetransmissionMessage_frame (V := V) sub sequenceNumber
    apply h.modifySubscription fun sub haddr => (hframe sub).1.trans haddr
    intro sub _ hitems
    rw [(hframe sub).2.2.2]
    exact hitems
  | republish sv sequenceNumber copied hsub => exact h
  | delete sv hsub => exact fun sub hmem => h sub (List.mem_of_mem_eraseP hmem)
  | createSubscription sv settings subscriptionID =>
    intro sub hmem
    obtain rfl | hmem := List.mem_cons.mp hmem
    · exact fun mon hmon => nomatch hmon
    · exact h sub hmem
  | createMonitoredItem sv a params =>
    have hnext : AllItems P { sv with nextAddr := sv.nextAddr + 1 } := h
    refine hnext.modifySubscription (fun _ haddr => haddr) ?_
    intro sub _ hitems mon hmon
    obtain rfl | hmon := List.mem_cons.mp hmon
    · exact hnew a params sv.nextAddr (sub.lastMonitoredItemId + 1)
    · exact hitems mon hmon
  | trans _ _ ih ih₁ => exact ih₁ (ih h)

theorem Changes.congr {sv'' : Server V} (h : Changes config sv outputs sv')
    (hsubs : sv''.serverSubscriptions = sv'.serverSubscriptions)
    (hnext : sv'.nextAddr ≤ sv''.nextAddr) : Changes config sv outputs sv'' := by
  have hframe : Changes config sv' [] sv'' := .frame hsubs hnext (by simp)
  have htrans := h.trans hframe
  rwa [List.append_nil] at htrans

theorem Changes.refl (sv : Server V) : Changes config sv [] sv :=
  .frame rfl (Nat.le_refl _) (by simp)

/-! ## The functions of the model, change by change -/

theorem setUpResponse_keepAlive (sub : Subscription V) (max : UInt32) (channel : Nat)
    (pre : PublishResponseEntry) (turn : Turn) (notifications : Nat) (more : Bool) (n : UInt32) :
    setUpResponse { sub with currentKeepAliveCount := n } max channel pre turn notifications more =
      setUpResponse sub max channel pre turn notifications more := by
  unfold setUpResponse prepareNotificationMessage addRetransmissionMessage
  dsimp only
  split
  · split <;> rfl
  · rfl

omit [Inhabited V] in
theorem settled_withoutResponse (sub : Subscription V) : Settled sub (withoutResponse sub).sub := by
  unfold withoutResponse
  split <;> exact ⟨rfl, rfl, rfl, rfl, rfl, rfl⟩

omit [Inhabited V] in
theorem Settled.trans {sub sub₁ sub₂ : Subscription V} (h : Settled sub sub₁)
    (h₁ : Settled sub₁ sub₂) : Settled sub sub₂ :=
  ⟨h₁.addr.trans h.addr, h₁.subscriptionID.trans h.subscriptionID,
    h₁.sequenceNumber.trans h.sequenceNumber, h₁.monitoredItems.trans h.monitoredItems,
    h₁.retransmissionQueue.trans h.retransmissionQueue,
    h₁.retransmissionQueueSize.trans h.retransmissionQueueSize⟩

theorem Changes.replace {a : Nat} {sub sub' : Subscription V}
    (hsub : subscriptionAt sv a = some sub)
    (h : Settled sub sub') : Changes config sv [] (sv.modifySubscription a fun _ => sub') := by
  have hsettle : Changes config sv [] (sv.modifySubscription a fun old =>
      { old with
        lifeTimeCount := sub'.lifeTimeCount
        maxKeepAliveCount := sub'.maxKeepAliveCount
        notificationsPerPublish := sub'.notificationsPerPublish
        publishingEnabled := sub'.publishingEnabled
        state := sub'.state
        currentKeepAliveCount := sub'.currentKeepAliveCount
        currentLifetimeCount := sub'.currentLifetimeCount
        lastMonitoredItemId := sub'.lastMonitoredItemId }) :=
    .settle sv a fun _ => ⟨rfl, rfl, rfl, rfl, rfl, rfl⟩
  refine hsettle.congr ?_ (Nat.le_refl _)
  apply congrArg Server.serverSubscriptions
  apply modifySubscription_congr
  intro old hold
  rw [hsub, Option.some.injEq] at hold
  subst hold
  obtain ⟨haddr, hid, hseq, hitems, hqueue, hsize⟩ := h
  cases sub
  cases sub'
  subst haddr hid hseq hitems hqueue hsize
  rfl

/-- What one pass of the publish callback can be: it sends nothing, or it takes the first queued
response, sends it and goes on exactly if there is more. -/
theorem publishCallback_cases (max : UInt32) (channel : Option Nat) (turns : Nat → Turn)
    (sub : Subscription V) (responseQueue : List PublishResponseEntry) :
    (∃ sub' ended, publishCallback max channel turns sub responseQueue =
        ⟨sub', ended, responseQueue, []⟩ ∧ Settled sub sub' ∧
          (ended = true → responseQueue = [])) ∨
      ∃ c pre rest, channel = some c ∧ responseQueue = pre :: rest ∧
        let response := setUpResponse sub max c pre (turns 0) (countQueuedNotifications sub).1
          (countQueuedNotifications sub).2
        publishCallback max channel turns sub responseQueue =
          if (countQueuedNotifications sub).2 then
            let next := publishCallback max channel (fun n => turns (n + 1)) response.1 rest
            { next with sent := response.2 :: next.sent }
          else ⟨response.1, false, rest, [response.2]⟩ := by
  -- the keep-alive counter has gone up by one where there is nothing to send
  have hcounted : ∀ sub₁, sub₁ = (if (countQueuedNotifications sub).1 = 0 then
      { sub with currentKeepAliveCount := sub.currentKeepAliveCount + 1 } else sub) →
      Settled sub sub₁ ∧ ∀ c pre turn notifications more,
        setUpResponse sub₁ max c pre turn notifications more =
          setUpResponse sub max c pre turn notifications more := by
    rintro sub₁ rfl
    split
    · exact ⟨⟨rfl, rfl, rfl, rfl, rfl, rfl⟩, fun c pre turn notifications more =>
        setUpResponse_keepAlive sub max c pre turn notifications more _⟩
    · exact ⟨⟨rfl, rfl, rfl, rfl, rfl, rfl⟩, fun _ _ _ _ _ => rfl⟩
  cases responseQueue with
  | nil =>
    left
    rw [publishCallback.eq_def]
    dsimp only
    generalize hsub₁ : (if (countQueuedNotifications sub).1 = 0 then
      { sub with currentKeepAliveCount := sub.currentKeepAliveCount + 1 } else sub) = sub₁
    obtain ⟨hsettled, -⟩ := hcounted sub₁ hsub₁.symm
    by_cases hdue : (countQueuedNotifications sub).1 = 0 ∧
        sub₁.currentKeepAliveCount < sub₁.maxKeepAliveCount
    · exact ⟨sub₁, false, if_pos hdue, hsettled, fun _ => rfl⟩
    · rw [if_neg hdue]
      cases channel with
      | none => exact ⟨sub₁, false, rfl, hsettled, fun _ => rfl⟩
      | some c =>
        refine ⟨(withoutResponse sub₁).sub, (withoutResponse sub₁).endOfLifetime, ?_,
          hsettled.trans (settled_withoutResponse sub₁), fun _ => rfl⟩
        unfold withoutResponse
        dsimp only
        split <;> rfl
  | cons pre rest =>
    rw [publishCallback.eq_def max channel turns sub (pre :: rest)]
    dsimp only
    generalize hsub₁ : (if (countQueuedNotifications sub).1 = 0 then
      { sub with currentKeepAliveCount := sub.currentKeepAliveCount + 1 } else sub) = sub₁
    obtain ⟨hsettled, hresponse⟩ := hcounted sub₁ hsub₁.symm
    by_cases hdue : (countQueuedNotifications sub).1 = 0 ∧
        sub₁.currentKeepAliveCount < sub₁.maxKeepAliveCount
    · exact Or.inl ⟨sub₁, false, if_pos hdue, hsettled, nofun⟩
    · rw [if_neg hdue]
      cases channel with
      | none => exact Or.inl ⟨sub₁, false, rfl, hsettled, nofun⟩
      | some c =>
        dsimp only
        by_cases halloc : (countQueuedNotifications sub).1 > 0 ∧
            ¬ ((turns 0).retransmission = true ∧ (turns 0).message = true)
        · exact Or.inl ⟨sub₁, false, if_pos halloc, hsettled, nofun⟩
        · rw [if_neg halloc, hresponse]
          exact Or.inr ⟨c, pre, rest, rfl, rfl, rfl⟩

theorem publishCallback_changes {a : Nat} (responseQueue : List PublishResponseEntry) :
    ∀ {sv : Server V} {sub : Subscription V} (turns : Nat → Turn) (channel : Option Nat),
      subscriptionAt sv a = some sub →
        let published := publishCallback config.maxRetransmissionQueueSize channel turns sub
          responseQueue
        published.sub.addr = a ∧
          Changes config sv (published.sent.map (Output.published a))
            (sv.modifySubscription a fun _ => published.sub) := by
  induction responseQueue with
  | nil =>
    intro sv sub turns channel hsub
    obtain ⟨sub', ended, heq, hsettled, -⟩ | ⟨c, pre, rest, -, hqueue, -⟩ :=
      publishCallback_cases config.maxRetransmissionQueueSize channel turns sub []
    · rw [heq]
      exact ⟨hsettled.addr.trans (addr_of_find hsub), .replace hsub hsettled⟩
    · exact nomatch hqueue
  | cons pre responseQueue ih =>
    intro sv sub turns channel hsub
    obtain ⟨sub', ended, heq, hsettled, -⟩ | ⟨c, pre', rest, rfl, hqueue, heq⟩ :=
      publishCallback_cases config.maxRetransmissionQueueSize channel turns sub
        (pre :: responseQueue)
    · rw [heq]
      exact ⟨hsettled.addr.trans (addr_of_find hsub), .replace hsub hsettled⟩
    · cases hqueue
      have hturn : Changes config sv _ _ := .publish sv c pre (turns 0) hsub
      have haddr : (answered config c pre (turns 0) sub).1.addr = a :=
        (addr_answered config c pre (turns 0) sub).trans (addr_of_find hsub)
      dsimp only at heq
      split at heq
      · rw [heq]
        have hnext : subscriptionAt (sv.modifySubscription a fun _ =>
            (answered config c pre (turns 0) sub).1) a =
              some (answered config c pre (turns 0) sub).1 := by
          rw [subscriptionAt_modifySubscription_self _ fun _ _ => haddr, hsub]
          rfl
        obtain ⟨hends, hrest⟩ := ih (fun n => turns (n + 1)) (some c) hnext
        refine ⟨hends, ?_⟩
        rw [modifySubscription_modifySubscription fun _ _ => haddr] at hrest
        exact hturn.trans hrest
      · rw [heq]
        exact ⟨haddr, hturn⟩

theorem deleteSubscription_changes (sv : Server V) (subscriptionID : UInt32) :
    Changes config sv (deleteSubscription sv subscriptionID).2
      (deleteSubscription sv subscriptionID).1 := by
  unfold deleteSubscription
  split
  · exact .refl sv
  · rename_i sub hsub
    exact .delete sv hsub

theorem publish_changes (sv : Server V) (a : Nat) (turns : Nat → Turn) :
    Changes config sv (publish config sv a turns).2 (publish config sv a turns).1 := by
  unfold publish
  split
  · exact .refl sv
  · rename_i sub hsub
    obtain ⟨-, hchanges⟩ := publishCallback_changes sv.responseQueue turns sv.channel hsub
    have hqueue : Changes config sv _
        ({ sv with responseQueue := (publishCallback config.maxRetransmissionQueueSize
          sv.channel turns sub sv.responseQueue).responseQueue }.modifySubscription a fun _ =>
            (publishCallback config.maxRetransmissionQueueSize sv.channel turns sub
              sv.responseQueue).sub) := hchanges.congr rfl (Nat.le_refl _)
    dsimp only
    split
    · exact hqueue.trans (deleteSubscription_changes _ _)
    · exact hqueue

theorem acknowledge_changes (acks : List (UInt32 × UInt32)) :
    ∀ {sv : Server V}, WellFormed sv →
      Changes config sv (acknowledge sv acks).2.2 (acknowledge sv acks).1 := by
  induction acks with
  | nil =>
    intro sv _
    exact .refl sv
  | cons ack acks ih =>
    intro sv hwf
    unfold acknowledge
    split
    · exact ih hwf
    · rename_i sub hsub
      have hack : Changes config sv _ _ := .acknowledge sv ack.2 (hwf.find_addr hsub)
      exact hack.trans (ih (hwf.changes hack))

theorem Changes.enqueue (sv : Server V) (entry : PublishResponseEntry) :
    Changes config sv [.queued entry] { sv with responseQueue := sv.responseQueue ++ [entry] } :=
  .frame rfl (Nat.le_refl _) (by simp [Output.Elsewhere])

theorem servicePublish_changes (hwf : WellFormed sv) (channel : Nat) (request : PublishRequest)
    (alloc : PublishAllocs) (turns : Nat → Turn) :
    Changes config sv (servicePublish config sv channel request alloc turns).2
      (servicePublish config sv channel request alloc turns).1 := by
  unfold servicePublish
  split
  · exact .frame rfl (Nat.le_refl _) (by simp [Output.Elsewhere])
  split
  · exact .frame rfl (Nat.le_refl _) (by simp [Output.Elsewhere])
  split
  · exact .frame rfl (Nat.le_refl _) (by simp [Output.Elsewhere])
  · have hack : Changes config sv _ _ :=
      acknowledge_changes request.subscriptionAcknowledgements hwf
    have hqueued := hack.trans (Changes.enqueue _ ⟨request.requestId, request.requestHandle,
      (acknowledge sv request.subscriptionAcknowledgements).2.1⟩)
    dsimp only
    split
    · exact hqueued
    · rename_i immediate _
      have hpublish := hqueued.trans (publish_changes _ immediate.addr turns)
      rwa [List.append_assoc] at hpublish

theorem serviceRepublish_changes (hwf : WellFormed sv)
    (subscriptionID retransmitSequenceNumber : UInt32) (copied : Bool) :
    Changes config sv (serviceRepublish sv subscriptionID retransmitSequenceNumber copied).2
      (serviceRepublish sv subscriptionID retransmitSequenceNumber copied).1 := by
  unfold serviceRepublish
  split
  · exact .refl sv
  · rename_i sub hsub
    exact (Changes.republish sv retransmitSequenceNumber copied (hwf.find_addr hsub)).trans
      (.settle sv sub.addr fun _ => ⟨rfl, rfl, rfl, rfl, rfl, rfl⟩)

theorem serviceCreateSubscription_changes (sv : Server V) (settings : SubscriptionSettings)
    (alloc : Bool) :
    Changes config sv [] (serviceCreateSubscription config sv settings alloc) := by
  unfold serviceCreateSubscription
  split
  · exact .refl sv
  · exact (Changes.createSubscription sv settings (sv.lastSubscriptionID + 1)).congr rfl
      (Nat.le_refl _)

theorem serviceCreateMonitoredItem_changes (sv : Server V) (subscriptionID : UInt32)
    (params : MonitoringParameters) (alloc : Bool) :
    Changes config sv [] (serviceCreateMonitoredItem config sv subscriptionID params alloc) := by
  unfold serviceCreateMonitoredItem
  split
  · exact .refl sv
  · rename_i sub _
    have hreset : Changes config sv [] (sv.modifySubscription sub.addr fun sub =>
        { sub with currentLifetimeCount := 0 }) :=
      .settle sv sub.addr fun _ => ⟨rfl, rfl, rfl, rfl, rfl, rfl⟩
    dsimp only
    split
    · exact hreset
    · exact hreset.trans (.createMonitoredItem _ sub.addr params)

theorem deleteSubscriptions_changes (ids : List UInt32) (sv : Server V) :
    Changes config sv (deleteSubscriptions sv ids).2 (deleteSubscriptions sv ids).1 := by
  induction ids generalizing sv with
  | nil => exact .refl sv
  | cons subscriptionID ids ih =>
    exact (deleteSubscription_changes sv subscriptionID).trans (ih _)

theorem serviceDeleteSubscriptions_changes (sv : Server V) (ids : List UInt32)
    (alloc : DeleteAllocs) :
    Changes config sv (serviceDeleteSubscriptions sv ids alloc).2
      (serviceDeleteSubscriptions sv ids alloc).1 := by
  unfold serviceDeleteSubscriptions
  split
  · exact .refl sv
  · dsimp only
    split
    · exact deleteSubscriptions_changes ids sv
    · exact (deleteSubscriptions_changes ids sv).congr rfl (Nat.le_refl _)

theorem Changes.of_ok {result : Server V × List (Output V)}
    (hch : Changes config sv result.2 result.1)
    (h : (Except.ok result : Except Breakdown _) = .ok (sv', outputs)) :
    Changes config sv outputs sv' := by
  rw [Except.ok.injEq] at h
  subst h
  exact hch

theorem runDelayed_changes {d : Delayed} (h : runDelayed sv d = .ok (sv', outputs)) :
    Changes config sv outputs sv' := by
  cases d with
  | answerPublishRequestsNoSubscription =>
    simp only [runDelayed, answerPublishRequestsNoSubscription] at h
    split at h
    · exact (Changes.refl sv).of_ok h
    · split at h
      · cases h
      · refine Changes.of_ok ?_ h
        refine .frame rfl (Nat.le_refl _) fun o ho => ?_
        obtain ⟨pre, -, rfl⟩ := List.mem_map.mp ho
        exact trivial
  | removeSecureChannelCallback c =>
    cases h
    exact .frame rfl (Nat.le_refl _) (by simp)

theorem processDelayedCallbacks_changes (ds : List Delayed) :
    ∀ {sv sv' : Server V} {outputs : List (Output V)},
      processDelayedCallbacks ds sv = .ok (sv', outputs) → Changes config sv outputs sv' := by
  induction ds with
  | nil =>
    intro sv sv' outputs h
    cases h
    exact .frame rfl (Nat.le_refl _) (by simp)
  | cons d ds ih =>
    intro sv sv' outputs h
    unfold processDelayedCallbacks at h
    split at h
    · cases h
    · rename_i sv₁ outputs₁ hd
      split at h
      · cases h
      · rename_i sv₂ outputs₂ hds
        cases h
        have htaken : Changes config sv [] { sv with delayedCallbacks := ds } :=
          .frame rfl (Nat.le_refl _) (by simp)
        exact (htaken.trans (runDelayed_changes hd)).trans (ih hds)

theorem serve_changes {service : Nat → Server V → Server V × List (Output V)}
    (hservice : ∀ channel, Changes config { sv with validTill := sv.clock + sv.timeout }
      (service channel { sv with validTill := sv.clock + sv.timeout }).2
      (service channel { sv with validTill := sv.clock + sv.timeout }).1) :
    Changes config sv (sv.serve service).2 (sv.serve service).1 := by
  unfold Server.serve
  split
  · exact .refl sv
  · rename_i channel _
    have hprolonged : Changes config sv [] { sv with validTill := sv.clock + sv.timeout } :=
      .frame rfl (Nat.le_refl _) (by simp)
    exact hprolonged.trans (hservice channel)

theorem step_changes {enc : Encoder V} (hwf : WellFormed sv) {e : Event V}
    (hsample : ∀ a m alloc value, e ≠ .sample a m alloc value)
    (h : step config sv enc e = .ok (sv', outputs)) : Changes config sv outputs sv' := by
  have hwf' : WellFormed { sv with validTill := sv.clock + sv.timeout } :=
    hwf.congr rfl (Nat.le_refl _)
  cases e with
  | sample a m alloc value => exact absurd rfl (hsample a m alloc value)
  | publishCallback a turns =>
    exact (publish_changes sv a turns).of_ok h
  | tick elapsed =>
    cases h
    exact .frame rfl (Nat.le_refl _) (by simp)
  | publish request alloc turns =>
    refine (serve_changes fun channel => ?_).of_ok h
    have hrequested : Changes config { sv with validTill := sv.clock + sv.timeout }
        [.requested request.requestId request.requestHandle]
        { sv with validTill := sv.clock + sv.timeout } :=
      .frame rfl (Nat.le_refl _) (by simp [Output.Elsewhere])
    exact hrequested.trans (servicePublish_changes hwf' channel request alloc turns)
  | republish subscriptionID sequenceNumber copied =>
    exact (serve_changes fun _ =>
      serviceRepublish_changes hwf' subscriptionID sequenceNumber copied).of_ok h
  | createSubscription settings alloc =>
    exact (serve_changes fun _ =>
      serviceCreateSubscription_changes _ settings alloc).of_ok h
  | createMonitoredItem subscriptionID params alloc =>
    exact (serve_changes fun _ =>
      serviceCreateMonitoredItem_changes _ subscriptionID params alloc).of_ok h
  | deleteSubscriptions ids alloc =>
    exact (serve_changes fun _ =>
      serviceDeleteSubscriptions_changes _ ids alloc).of_ok h
  | openChannel =>
    cases h
    exact .frame rfl (Nat.le_succ _) (by simp)
  | closeChannel c alloc =>
    cases h
    unfold removeSecureChannel
    split
    · exact .frame rfl (Nat.le_refl _) (by simp)
    · exact .refl sv
  | activateSession c alloc =>
    cases h
    split
    · unfold serviceActivateSession
      split
      · exact .refl sv
      · exact .frame rfl (Nat.le_refl _) (by simp)
    · exact .refl sv
  | delayedCallbacks => exact processDelayedCallbacks_changes _ h

end Publishing

end FactoryThing.Subscriptions
