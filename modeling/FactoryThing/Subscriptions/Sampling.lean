import FactoryThing.Subscriptions.Changes

/-!
# What a sample can do

A sample leaves everything as it is, or the value goes behind the others in the queue of its
monitored item. What every step keeps of the monitored items follows: their addresses stay apart and
their sizes count the values in their queues.
-/

namespace FactoryThing.Subscriptions

variable {V : Type} {config : Config} {sv sv' : Server V} {outputs : List (Output V)}

variable {mon : MonitoredItem V} {alloc : SampleAllocs} {enc : Encoder V} {sampled : Sampled V}
  {value : DataValue V} {a m : Nat}

theorem ensureSpace_cases {mon' : MonitoredItem V} {discarded : List (QueuedValue V)}
    (h : ensureSpaceInMonitoredItemQueue mon = .ok (mon', discarded)) :
    (mon' = mon ∧ discarded = [] ∧ mon.currentQueueSize < mon.maxQueueSize) ∨
      ∃ queue qv, mon' = { mon with queue := queue, currentQueueSize := mon.currentQueueSize - 1 } ∧
        discarded = [qv] ∧ mon.maxQueueSize ≤ mon.currentQueueSize ∧
        (mon.queue = qv :: queue ∨ mon.queue = queue ++ [qv]) := by
  unfold ensureSpaceInMonitoredItemQueue at h
  split at h
  · rename_i hroom
    cases h
    exact Or.inl ⟨rfl, rfl, hroom⟩
  · rename_i hfull
    have hle : mon.maxQueueSize ≤ mon.currentQueueSize := UInt32.not_lt.mp hfull
    split at h
    · cases h
    · rename_i qv hqv
      cases h
      refine Or.inr ⟨_, qv, rfl, rfl, hle, ?_⟩
      split at hqv
      · rename_i holdest
        rw [if_pos holdest]
        exact Or.inl (List.eq_cons_of_mem_head? hqv)
      · rename_i hnewest
        rw [if_neg hnewest]
        exact Or.inr (List.dropLast_append_getLast? qv hqv).symm

theorem sampleCallbackWithValue_cases
    (h : sampleCallbackWithValue enc alloc mon value = .ok sampled) :
    (sampled.mon = mon ∧ sampled.accepted = false ∧ sampled.discarded = []) ∨
      (sampled.accepted = true ∧ ∃ queue,
        sampled.mon.addr = mon.addr ∧ sampled.mon.maxQueueSize = mon.maxQueueSize ∧
        sampled.mon.queue = queue ++ [⟨mon.clientHandle, value⟩] ∧
        ((queue = mon.queue ∧ sampled.discarded = [] ∧
            mon.currentQueueSize < mon.maxQueueSize ∧
            sampled.mon.currentQueueSize = mon.currentQueueSize + 1) ∨
          ∃ qv, sampled.discarded = [qv] ∧ mon.maxQueueSize ≤ mon.currentQueueSize ∧
            sampled.mon.currentQueueSize = mon.currentQueueSize ∧
            (mon.queue = qv :: queue ∨ mon.queue = queue ++ [qv]))) := by
  unfold sampleCallbackWithValue at h
  split at h
  · cases h
    exact Or.inl ⟨rfl, rfl, rfl⟩
  split at h
  · cases h
    exact Or.inl ⟨rfl, rfl, rfl⟩
  split at h
  · cases h
    exact Or.inl ⟨rfl, rfl, rfl⟩
  split at h
  · cases h
    exact Or.inl ⟨rfl, rfl, rfl⟩
  · split at h
    · cases h
    · rename_i mon' discarded hspace
      cases h
      refine Or.inr ⟨rfl, mon'.queue, ?_⟩
      obtain ⟨rfl, rfl, hroom⟩ | ⟨queue, qv, rfl, rfl, hfull, hqueue⟩ := ensureSpace_cases hspace
      · exact ⟨rfl, rfl, rfl, Or.inl ⟨rfl, rfl, hroom, rfl⟩⟩
      · refine ⟨rfl, rfl, rfl, Or.inr ⟨qv, rfl, hfull, ?_, hqueue⟩⟩
        exact UInt32.sub_add_cancel _ _

/-- The subscription with another monitored item at an address. -/
def Subscription.setMonitoredItem (m : Nat) (mon : MonitoredItem V) (sub : Subscription V) :
    Subscription V :=
  { sub with monitoredItems := Keyed.modify MonitoredItem.addr (fun _ => mon) m sub.monitoredItems }

theorem sampleCallback_cases (h : sampleCallback sv enc a m alloc value = .ok (sv', outputs)) :
    (sv' = sv ∧ outputs = []) ∨
      ∃ sub mon sampled, subscriptionAt sv a = some sub ∧
        Keyed.find MonitoredItem.addr sub.monitoredItems m = some mon ∧
        sampleCallbackWithValue enc alloc mon value = .ok sampled ∧
        sv' = sv.modifySubscription a (Subscription.setMonitoredItem m sampled.mon) ∧
        outputs = sampled.discarded.map (Output.discarded a m) ++
          if sampled.accepted then [Output.accepted a m value] else [] := by
  unfold sampleCallback at h
  split at h
  · cases h
    exact Or.inl ⟨rfl, rfl⟩
  · rename_i sub hsub
    split at h
    · cases h
      exact Or.inl ⟨rfl, rfl⟩
    · rename_i mon hmon
      split at h
      · cases h
      · rename_i mon' accepted discarded hsampled
        cases h
        exact Or.inr ⟨sub, mon, _, hsub, hmon, hsampled, rfl, rfl⟩

theorem addr_of_sampled (h : sampleCallbackWithValue enc alloc mon value = .ok sampled) :
    sampled.mon.addr = mon.addr := by
  obtain ⟨hmon, -⟩ | ⟨-, _, haddr, -⟩ := sampleCallbackWithValue_cases h
  · rw [hmon]
  · exact haddr

theorem AllItems.setMonitoredItem {P : Nat → MonitoredItem V → Prop} (h : AllItems P sv)
    {mon' : MonitoredItem V} (hmon' : P a mon') :
    AllItems P (sv.modifySubscription a (Subscription.setMonitoredItem m mon')) := by
  refine h.modifySubscription (fun _ haddr => haddr) ?_
  intro sub _ hitems mon hmon
  obtain hmon | ⟨old, -, rfl⟩ := Keyed.mem_modify hmon
  · exact hitems mon hmon
  · exact hmon'

theorem WellFormed.sample (hwf : WellFormed sv)
    (h : sampleCallback sv enc a m alloc value = .ok (sv', outputs)) : WellFormed sv' := by
  obtain ⟨rfl, -⟩ | ⟨sub, mon, sampled, hsub, hmon, hsampled, rfl, -⟩ := sampleCallback_cases h
  · exact hwf
  · apply hwf.modify_of_map_addr
    · exact fun _ hsub => hsub
    · intro sub _
      have haddr := (addr_of_sampled hsampled).trans (Keyed.key_of_find hmon)
      exact Keyed.map_key_modify (fun _ _ => haddr) sub.monitoredItems

/-- `currentQueueSize` counts the queued values. -/
def Sized : Server V → Prop := AllItems fun _ mon => mon.currentQueueSize.toNat = mon.queue.length

theorem Sized.changes [Inhabited V] (h : Sized sv) (hch : Changes config sv outputs sv') :
    Sized sv' := by
  refine hch.allItems (fun _ _ _ _ => rfl) ?_ h
  intro _ mon k l hsize
  have hle : min (k - l) mon.queue.length ≤ mon.currentQueueSize.toNat :=
    hsize ▸ Nat.min_le_right _ _
  have hlt : min (k - l) mon.queue.length < UInt32.size :=
    Nat.lt_of_le_of_lt hle mon.currentQueueSize.toNat_lt
  rw [moveQueue_eq, List.length_map, List.length_take, List.length_drop]
  rw [UInt32.toNat_sub_of_le _ _ (UInt32.le_iff_toNat_le.mpr _),
    UInt32.toNat_ofNat_of_lt' hlt, hsize]
  · omega
  · rwa [UInt32.toNat_ofNat_of_lt' hlt]

theorem Sized.sample (h : Sized sv)
    (hsample : sampleCallback sv enc a m alloc value = .ok (sv', outputs)) : Sized sv' := by
  obtain ⟨rfl, -⟩ | ⟨sub, mon, sampled, hsub, hmon, hsampled, rfl, -⟩ :=
    sampleCallback_cases hsample
  · exact h
  · have hsize := h sub (Keyed.mem_of_find hsub) mon (Keyed.mem_of_find hmon)
    apply AllItems.setMonitoredItem h
    obtain ⟨heq, -⟩ | ⟨-, queue, -, -, hqueue, hkept⟩ := sampleCallbackWithValue_cases hsampled
    · rw [heq]
      exact hsize
    · rw [hqueue, List.length_append, List.length_singleton]
      obtain ⟨rfl, -, hroom, hnew⟩ | ⟨qv, -, -, hnew, hsplit⟩ := hkept
      · have hlt := UInt32.lt_iff_toNat_lt.mp hroom
        have hmax := mon.maxQueueSize.toNat_lt
        rw [hnew, UInt32.toNat_add, hsize]
        simp only [UInt32.reduceToNat]
        omega
      · rw [hnew, hsize]
        obtain hsplit | hsplit := hsplit <;> simp [hsplit]

theorem discarded_of_full {enc : Encoder V} {alloc : SampleAllocs} {mon : MonitoredItem V}
    {value : DataValue V} {sampled : Sampled V} (hsize : mon.currentQueueSize.toNat =
    mon.queue.length)
    (h : sampleCallbackWithValue enc alloc mon value = .ok sampled)
    (hdisc : sampled.discarded ≠ []) :
    mon.maxQueueSize.toNat ≤ mon.queue.length := by
  obtain ⟨-, -, hnone⟩ | ⟨-, queue, -, -, -, ⟨-, hnone, -⟩ | ⟨qv, -, hfull, -⟩⟩ :=
    sampleCallbackWithValue_cases h
  · exact absurd hnone hdisc
  · exact absurd hnone hdisc
  · exact hsize ▸ UInt32.le_iff_toNat_le.mp hfull

theorem WellFormed.step [Inhabited V] (hwf : WellFormed sv) {e : Event V}
    (h : step config sv enc e = .ok (sv', outputs)) : WellFormed sv' := by
  by_cases hsample : ∃ a m alloc value, e = .sample a m alloc value
  · obtain ⟨a, m, alloc, value, rfl⟩ := hsample
    exact hwf.sample h
  · refine hwf.changes (step_changes hwf (fun a m alloc value he => hsample ?_) h)
    exact ⟨a, m, alloc, value, he⟩

def standardConfig : Config where
  lifeTimeCountLimits := ⟨3, 15000⟩
  keepAliveCountLimits := ⟨1, 100⟩
  queueSizeLimits := ⟨1, 100⟩
  maxNotificationsPerPublish := 1000
  maxRetransmissionQueueSize := 0

def byteEncoder : Encoder Nat where
  calcSizeBinary _ := 1
  encodeBinary value _ := some [UInt8.ofNat value.content]

/-- A data value with nothing but its content. -/
def plainValue (n : Nat) : DataValue Nat := ⟨true, false, false, false, false, false, n⟩

def granted : Nat → Turn := fun n => ⟨n, true, true⟩

def sampleGranted : SampleAllocs := ⟨true, true, true, true⟩

/-- A subscription with one monitored item that has taken one sample. -/
def sampledOnce (publishingEnabled : Bool) : List (Event Nat) :=
  [.createSubscription ⟨publishingEnabled, 3, 1, 0⟩ true,
    .createMonitoredItem 1 ⟨7, 1, true, .statusValue⟩ true,
    .sample 1 2 sampleGranted (plainValue 42)]

end FactoryThing.Subscriptions
