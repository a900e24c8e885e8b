import FactoryThing.Subscriptions.MonitoredItems

/-!
# Monitored items and their settings

The queue of a monitored item is trimmed by one value for each value that is put in, and the index
range of a new monitored item is set behind its first sample. As long as no sample meets a queue
that is longer than the queue size, or a queue size of zero, and no first sample is taken for an
item with an index range, every queue keeps to the settings of its monitored item.
-/

namespace FactoryThing.Subscriptions

open AddressSpace Variants

variable {V W : Type} {config : Config} {enc : Encoder W} {s s' : Monitored W}

variable {alloc : SampleAllocs} {mon : MonitoredItem V} {value : DataValue V}

/-- Whether a sample of the value comes to its point of no return. -/
def accepts (enc : Encoder V) (alloc : SampleAllocs) (mon : MonitoredItem V) (value : DataValue V) :
    Bool :=
  (detectValueChange enc alloc mon value).isSome && alloc.queueItem &&
    (alloc.encodingCopy || !onStack enc mon value) &&
    (alloc.valueCopy || !(value.hasValue && value.noDelete))

theorem sampleCallbackWithValue_of_not_accepts {enc : Encoder V}
    (h : ¬ accepts enc alloc mon value) :
    sampleCallbackWithValue enc alloc mon value = .ok ⟨mon, false, []⟩ := by
  unfold sampleCallbackWithValue
  cases hdetect : detectValueChange enc alloc mon value with
  | none => rfl
  | some encoding =>
    simp only [accepts, hdetect, Option.isSome_some, Bool.true_and, Bool.and_eq_true,
      Bool.or_eq_true, Bool.not_eq_true', Bool.and_eq_false_iff] at h
    dsimp only
    split
    · rfl
    · split
      · rfl
      · split
        · rfl
        · rename_i hitem hcopy hvalue
          refine absurd ⟨⟨by simpa using hitem, ?_⟩, ?_⟩ h
          · by_cases hstack : onStack enc mon value = true
            · exact Or.inl (by simpa [hstack] using hcopy)
            · exact Or.inr (by simpa using hstack)
          · by_cases hnodelete : value.hasValue = true ∧ value.noDelete = true
            · exact Or.inl (by simpa [hnodelete] using hvalue)
            · right
              cases hhas : value.hasValue with
              | false => exact Or.inl rfl
              | true => exact Or.inr (Bool.eq_false_iff.mpr fun hno => hnodelete ⟨hhas, hno⟩)

theorem ensureSpace_ok
    (h : mon.queue ≠ [] ∨ mon.currentQueueSize < mon.maxQueueSize) :
    ∃ ensured, ensureSpaceInMonitoredItemQueue mon = .ok ensured := by
  unfold ensureSpaceInMonitoredItemQueue
  split
  · exact ⟨_, rfl⟩
  · rename_i hfull
    have hqueue : mon.queue ≠ [] := h.resolve_right hfull
    have hhead : mon.queue.head? = some (mon.queue.head hqueue) := List.head?_eq_some_head hqueue
    have hlast : mon.queue.getLast? = some (mon.queue.getLast hqueue) :=
      List.getLast?_eq_some_getLast hqueue
    split
    · rename_i hnone
      split at hnone
      · rw [hhead] at hnone
        cases hnone
      · rw [hlast] at hnone
        cases hnone
    · exact ⟨_, rfl⟩

/-- The queue of the monitored item is not longer than its queue size, which is not zero if the
value is queued. -/
def SampleFits (enc : Encoder V) (alloc : SampleAllocs) (mon : MonitoredItem V)
    (value : DataValue V) : Prop :=
  mon.queue.length ≤ mon.maxQueueSize.toNat ∧
    (accepts enc alloc mon value → mon.maxQueueSize ≠ 0)

theorem sampleCallbackWithValue_ok {enc : Encoder V}
    (hsize : mon.currentQueueSize.toNat = mon.queue.length)
    (hfits : SampleFits enc alloc mon value) :
    ∃ sampled, sampleCallbackWithValue enc alloc mon value = .ok sampled := by
  by_cases haccepts : accepts enc alloc mon value = true
  · have hspace : mon.queue ≠ [] ∨ mon.currentQueueSize < mon.maxQueueSize := by
      by_cases hqueue : mon.queue = []
      · right
        have hne : mon.maxQueueSize.toNat ≠ 0 := fun hzero =>
          hfits.2 haccepts (UInt32.toNat_inj.mp hzero)
        rw [hqueue] at hsize
        exact UInt32.lt_iff_toNat_lt.mpr (by rw [hsize, List.length_nil]; omega)
      · exact Or.inl hqueue
    unfold sampleCallbackWithValue
    split
    · exact ⟨_, rfl⟩
    · rename_i encoding _
      obtain ⟨⟨mon', discarded⟩, hensured⟩ :=
        @ensureSpace_ok V { mon with lastSampledValue := some encoding } hspace
      rw [hensured]
      dsimp only
      repeat' split
      all_goals exact ⟨_, rfl⟩
  · exact ⟨_, sampleCallbackWithValue_of_not_accepts haccepts⟩

theorem size_sampled {enc : Encoder V}
    {sampled : Sampled V} (hsize : mon.currentQueueSize.toNat = mon.queue.length)
    (hfits : mon.queue.length ≤ mon.maxQueueSize.toNat)
    (h : sampleCallbackWithValue enc alloc mon value = .ok sampled) :
    sampled.mon.currentQueueSize ≤ sampled.mon.maxQueueSize := by
  have hle : mon.currentQueueSize ≤ mon.maxQueueSize := UInt32.le_iff_toNat_le.mpr (hsize ▸ hfits)
  obtain ⟨heq, -⟩ | ⟨-, queue, -, hmax, -, ⟨-, -, hroom, hnew⟩ | ⟨qv, -, -, hnew, -⟩⟩ :=
    sampleCallbackWithValue_cases h
  · rw [heq]
    exact hle
  · rw [hmax, hnew]
    have hlt := UInt32.lt_iff_toNat_lt.mp hroom
    refine UInt32.le_iff_toNat_le.mpr ?_
    rw [UInt32.toNat_add]
    simp only [UInt32.reduceToNat]
    omega
  · rw [hmax, hnew]
    exact hle

theorem mem_queue_sampled {enc : Encoder V}
    {sampled : Sampled V}
    (h : sampleCallbackWithValue enc alloc mon value = .ok sampled) {qv : QueuedValue V}
    (hqv : qv ∈ sampled.mon.queue) :
    qv ∈ mon.queue ∨ accepts enc alloc mon value ∧ qv.value = value := by
  by_cases haccepts : accepts enc alloc mon value = true
  · obtain ⟨heq, -⟩ | ⟨-, queue, -, -, hqueue, hkept⟩ := sampleCallbackWithValue_cases h
    · exact Or.inl (heq ▸ hqv)
    · rw [hqueue, List.mem_append, List.mem_singleton] at hqv
      obtain hqv | rfl := hqv
      · left
        obtain ⟨rfl, -⟩ | ⟨_, -, -, -, hsplit | hsplit⟩ := hkept
        · exact hqv
        · exact hsplit ▸ List.mem_cons_of_mem _ hqv
        · exact hsplit ▸ List.mem_append_left _ hqv
      · exact Or.inr ⟨haccepts, rfl⟩
  · rw [sampleCallbackWithValue_of_not_accepts haccepts, Except.ok.injEq] at h
    subst h
    exact Or.inl hqv

/-- Every queued value has been read with what is to be read for its monitored item. -/
def Owned (targets : Nat → ReadValueId) : Server (Sample W) → Prop :=
  AllItems fun _ mon => ∀ qv ∈ mon.queue, qv.value.content.readValueId = targets mon.addr

/-- Every size counts its queue, and every queue holds values of its own monitored item. -/
structure Kept (targets : Nat → ReadValueId) (sv : Server (Sample W)) : Prop where
  wellFormed : WellFormed sv
  sized : Sized sv
  owned : Owned targets sv

/-- What the sample jobs read, by the address of the monitored item. -/
def Monitored.targets (s : Monitored W) (m : Nat) : ReadValueId := (s.settings m).readValueId

section Kept

variable {targets targets' : Nat → ReadValueId} {sv sv' : Server (Sample W)}
  {outputs : List (Output (Sample W))}

theorem kept_init (targets : Nat → ReadValueId) (timeout clock : Int) :
    Kept targets (Server.init timeout clock : Server (Sample W)) where
  wellFormed := wellFormed_init timeout clock
  sized _ h := nomatch h
  owned _ h := nomatch h

theorem Kept.changes [Inhabited W] (h : Kept targets sv) (hch : Changes config sv outputs sv') :
    Kept targets sv' where
  wellFormed := h.wellFormed.changes hch
  sized := h.sized.changes hch
  owned := by
    refine hch.allItems (fun _ _ _ _ _ hqv => nomatch hqv) ?_ h.owned
    intro _ mon k l howned qv hqv
    rw [moveQueue_eq] at hqv
    exact howned qv (List.mem_of_mem_drop hqv)

theorem Kept.congr (h : Kept targets sv) (hsubs : sv'.serverSubscriptions = sv.serverSubscriptions)
    (hnext : sv.nextAddr ≤ sv'.nextAddr) : Kept targets sv' where
  wellFormed := h.wellFormed.congr hsubs hnext
  sized sub hsub := h.sized sub (hsubs ▸ hsub)
  owned sub hsub := h.owned sub (hsubs ▸ hsub)

theorem Kept.retarget (h : Kept targets sv) (htargets : ∀ m < sv.nextAddr, targets' m = targets m) :
    Kept targets' sv where
  wellFormed := h.wellFormed
  sized := h.sized
  owned sub hsub mon hmon qv hqv :=
    (h.owned sub hsub mon hmon qv hqv).trans
      (htargets mon.addr (h.wellFormed.items_bounded sub hsub mon hmon)).symm

theorem Kept.modifyItem (h : Kept targets sv) (a m : Nat)
    {f : MonitoredItem (Sample W) → MonitoredItem (Sample W)}
    (hf : ∀ mon, (f mon).addr = mon.addr ∧ (f mon).queue = mon.queue ∧
      (f mon).currentQueueSize = mon.currentQueueSize) : Kept targets (sv.modifyItem a m f) where
  wellFormed := by
    refine h.wellFormed.modify_of_map_addr (fun _ haddr => haddr) fun sub _ => ?_
    exact Keyed.map_key_modify (fun mon haddr => (hf mon).1.trans haddr) sub.monitoredItems
  sized := by
    refine AllItems.modifySubscription h.sized (fun _ haddr => haddr) fun sub _ hitems mon
      hmon => ?_
    obtain hmon | ⟨old, hold, rfl⟩ := Keyed.mem_modify hmon
    · exact hitems mon hmon
    · rw [(hf old).2.1, (hf old).2.2]
      exact hitems old (Keyed.mem_of_find hold)
  owned := by
    refine AllItems.modifySubscription h.owned (fun _ haddr => haddr) fun sub _ hitems mon
      hmon => ?_
    obtain hmon | ⟨old, hold, rfl⟩ := Keyed.mem_modify hmon
    · exact hitems mon hmon
    · rw [(hf old).1, (hf old).2.1]
      exact hitems old (Keyed.mem_of_find hold)

theorem itemAt_eq_some {sub : Subscription V} {sv : Server V} {a m : Nat}
    (hsub : subscriptionAt sv a = some sub)
    (hmon : Keyed.find MonitoredItem.addr sub.monitoredItems m = some mon) :
    itemAt sv a m = some mon := by
  unfold itemAt
  rw [hsub]
  exact hmon

theorem Kept.sample {enc : Encoder (Sample W)} (h : Kept targets sv) {a m : Nat}
    {value : DataValue (Sample W)}
    (hown : ∀ mon, itemAt sv a m = some mon → accepts enc alloc mon value →
      value.content.readValueId = targets m)
    (hsample : sampleCallback sv enc a m alloc value = .ok (sv', outputs)) : Kept targets sv' where
  wellFormed := h.wellFormed.sample hsample
  sized := h.sized.sample hsample
  owned := by
    obtain ⟨rfl, -⟩ | ⟨sub, mon, sampled, hsub, hmon, hsampled, rfl, -⟩ :=
      sampleCallback_cases hsample
    · exact h.owned
    · apply AllItems.setMonitoredItem h.owned
      intro qv hqv
      rw [addr_of_sampled hsampled, Keyed.key_of_find hmon]
      obtain hqv | ⟨haccepts, rfl⟩ := mem_queue_sampled hsampled hqv
      · rw [← Keyed.key_of_find hmon]
        exact h.owned sub (Keyed.mem_of_find hsub) mon (Keyed.mem_of_find hmon) qv hqv
      · exact hown mon (itemAt_eq_some hsub hmon) haccepts

theorem sampleCallback_of_none {enc : Encoder V} {sv : Server V} {a m : Nat}
    (h : itemAt sv a m = none) :
    sampleCallback sv enc a m alloc value = .ok (sv, []) := by
  unfold sampleCallback
  cases hsub : Keyed.find Subscription.addr sv.serverSubscriptions a with
  | none => rfl
  | some sub =>
    have hmon : Keyed.find MonitoredItem.addr sub.monitoredItems m = none := by
      unfold itemAt subscriptionAt at h
      rw [hsub] at h
      exact h
    dsimp only
    rw [hmon]

theorem sampleCallback_of_sampled {enc : Encoder V} {sv : Server V} {a m : Nat}
    {sub : Subscription V} {sampled : Sampled V} (hsub : subscriptionAt sv a = some sub)
    (hmon : Keyed.find MonitoredItem.addr sub.monitoredItems m = some mon)
    (hsampled : sampleCallbackWithValue enc alloc mon value = .ok sampled) :
    sampleCallback sv enc a m alloc value =
      .ok (sv.modifySubscription a (Subscription.setMonitoredItem m sampled.mon),
        sampled.discarded.map (Output.discarded a m) ++
          if sampled.accepted then [Output.accepted a m value] else []) := by
  unfold sampleCallback
  rw [show Keyed.find Subscription.addr sv.serverSubscriptions a = some sub from hsub]
  dsimp only
  rw [hmon]
  dsimp only
  rw [hsampled]
  rfl

theorem Kept.sample_ok {enc : Encoder (Sample W)} (h : Kept targets sv) {a m : Nat}
    {value : DataValue (Sample W)}
    (hfits : ∀ mon, itemAt sv a m = some mon → SampleFits enc alloc mon value) :
    ∃ sv' outputs, sampleCallback sv enc a m alloc value = .ok (sv', outputs) ∧
      ∀ mon, itemAt sv' a m = some mon → mon.currentQueueSize ≤ mon.maxQueueSize := by
  cases hitem : itemAt sv a m with
  | none =>
    refine ⟨sv, [], sampleCallback_of_none hitem, fun mon hmon => ?_⟩
    rw [hitem] at hmon
    cases hmon
  | some mon =>
    obtain ⟨sub, hsub, hmon⟩ := Option.bind_eq_some_iff.mp hitem
    have hsize := h.sized sub (Keyed.mem_of_find hsub) mon (Keyed.mem_of_find hmon)
    obtain ⟨sampled, hsampled⟩ := sampleCallbackWithValue_ok hsize (hfits mon hitem)
    refine ⟨_, _, sampleCallback_of_sampled hsub hmon hsampled, fun mon' hmon' => ?_⟩
    have haddr : sampled.mon.addr = m := (addr_of_sampled hsampled).trans (Keyed.key_of_find hmon)
    have hself := @subscriptionAt_modifySubscription_self _ a
      (Subscription.setMonitoredItem m sampled.mon) sv fun _ haddr => haddr
    unfold itemAt at hmon'
    rw [hself, hsub] at hmon'
    have hfind := (Keyed.find_modify_self (fun _ _ => haddr) sub.monitoredItems).symm.trans hmon'
    rw [hmon, Option.map_some, Option.some.injEq] at hfind
    rw [← hfind]
    exact size_sampled hsize (hfits mon hitem).1 hsampled

end Kept

/-! ## The services -/

/-- A monitored item is left by its sample with no more values than its queue size. -/
def Observation.Fits : Observation W → Prop
  | .sampled _ mon => mon.currentQueueSize ≤ mon.maxQueueSize
  | _ => True

/-- Every monitored item that is sampled fits. -/
def Trimmed (outputs : List (Observation W)) : Prop := ∀ o ∈ outputs, o.Fits

/-- The breakdowns that have nothing to do with the settings: a session has no channel to drain its
requests over, or a read fails. -/
def ItemBreakdown.Elsewhere : ItemBreakdown → Prop
  | .session .noChannel | .read _ => True
  | _ => False

/-- After the step the queues keep to the settings. -/
def StaysWithin : Outcome W → Prop
  | .ok (s', outputs) => Kept s'.targets s'.session ∧ Trimmed outputs
  | .error breakdown => breakdown.Elsewhere

theorem trimmed_nil : Trimmed ([] : List (Observation W)) := fun _ h => nomatch h

theorem Trimmed.append {outputs outputs' : List (Observation W)} (h : Trimmed outputs)
    (h' : Trimmed outputs') : Trimmed (outputs ++ outputs') :=
  fun o hmem => (List.mem_append.mp hmem).elim (h o) (h' o)

theorem trimmed_singleton {o : Observation W} (h : o.Fits) : Trimmed [o] :=
  fun _ hmem => (List.mem_singleton.mp hmem).symm ▸ h

theorem trimmed_session (outputs : List (Output (Sample W))) :
    Trimmed (outputs.map Observation.session) := by
  intro o hmem
  obtain ⟨output, -, rfl⟩ := List.mem_map.mp hmem
  exact trivial

theorem staysWithin_fault (h : Kept s.targets s.session) (status : StatusCode) :
    StaysWithin (.ok (s, [.fault status]) : Outcome W) := ⟨h, trimmed_singleton trivial⟩

theorem sampleItem_spec {targets : Nat → ReadValueId} (h : Kept targets s.session) {a m : Nat}
    {read : Reader W} (hfits : ∀ mon, itemAt s.session a m = some mon →
      ∀ value, (s.settings m).readValue read = .ok value →
        SampleFits enc.ofSamples alloc mon value ∧
          (accepts enc.ofSamples alloc mon value → targets m = s.targets m)) :
    (∃ fault, sampleItem enc s a m alloc read = .error (.read fault)) ∨
      ∃ session outputs,
        sampleItem enc s a m alloc read = .ok ({ s with session := session }, outputs) ∧
          Kept targets session ∧ Trimmed outputs := by
  cases hread : (s.settings m).readValue read with
  | error fault =>
    refine Or.inl ⟨fault, ?_⟩
    unfold sampleItem
    rw [hread]
  | ok value =>
    have hvalue : value.content.readValueId = s.targets m := by
      unfold ItemSettings.readValue at hread
      cases hsource : read (s.settings m).timestampsToReturn (s.settings m).readValueId with
      | error fault =>
        rw [hsource] at hread
        cases hread
      | ok source =>
        rw [hsource] at hread
        cases hread
        rfl
    obtain ⟨session, outputs, hsample, hsize⟩ :=
      h.sample_ok fun mon hmon => (hfits mon hmon value hread).1
    refine Or.inr ⟨session, outputs.map Observation.session ++
      (itemAt session a m).toList.map (Observation.sampled a), ?_, ?_, ?_⟩
    · unfold sampleItem
      rw [hread]
      dsimp only
      rw [hsample]
    · refine h.sample (fun mon hmon haccepts => ?_) hsample
      exact hvalue.trans ((hfits mon hmon value hread).2 haccepts).symm
    · refine (trimmed_session outputs).append fun o hmem => ?_
      obtain ⟨mon, hmon, rfl⟩ := List.mem_map.mp hmem
      exact hsize mon (Option.mem_toList.mp hmon)

theorem setMonitoredItemSettings_kept (h : Kept s.targets s.session) (a m : Nat)
    (monitoringMode : UInt32) (params : MonitoringParameters) (registered : Bool) :
    let s' := setMonitoredItemSettings config s a m monitoringMode params registered
    Kept s'.targets s'.session := by
  have hkept := h.modifyItem a m (f := MonitoredItem.withParameters config params)
    fun _ => ⟨rfl, rfl, rfl⟩
  refine hkept.retarget fun n _ => ?_
  by_cases hn : n = m
  · subst hn
    simp [Monitored.targets, setMonitoredItemSettings, Monitored.setSettings,
      ItemSettings.readValueId]
  · simp [Monitored.targets, setMonitoredItemSettings, Monitored.setSettings, hn]

theorem serviceModifyMonitoredItemsSingle_kept (h : Kept s.targets s.session) (a : Nat)
    (request : MonitoredItemModifyRequest) (registered : Bool) :
    let s' := (serviceModifyMonitoredItemsSingle config s a request registered).1
    Kept s'.targets s'.session := by
  unfold serviceModifyMonitoredItemsSingle
  split
  · exact h
  · exact setMonitoredItemSettings_kept h _ _ _ _ _

theorem modifyItems_kept {a : Nat} (items : List (MonitoredItemModifyRequest × Bool)) :
    ∀ {s : Monitored W}, Kept s.targets s.session →
      Kept (modifyItems config a s items).1.targets (modifyItems config a s items).1.session := by
  induction items with
  | nil => exact fun h => h
  | cons item items ih =>
    exact fun h => ih (serviceModifyMonitoredItemsSingle_kept h a item.1 item.2)

theorem setMonitoringModeSingle_kept (h : Kept s.targets s.session)
    (a : Nat) (monitoringMode monitoredItemId : UInt32) (registered : Bool) :
    let s' := (setMonitoringModeSingle s a monitoringMode monitoredItemId registered).1
    Kept s'.targets s'.session := by
  unfold setMonitoringModeSingle
  split
  · exact h
  · rename_i mon _
    dsimp only
    split
    · exact h
    · refine Kept.retarget h fun n _ => ?_
      by_cases hn : n = mon.addr
      · subst hn
        simp [Monitored.targets, Monitored.setSettings, ItemSettings.readValueId]
      · simp [Monitored.targets, Monitored.setSettings, hn]

theorem setMonitoringModes_kept {a : Nat} {monitoringMode : UInt32} (items : List (UInt32 × Bool)) :
    ∀ {s : Monitored W}, Kept s.targets s.session →
      Kept (setMonitoringModes a monitoringMode s items).1.targets
        (setMonitoringModes a monitoringMode s items).1.session := by
  induction items with
  | nil => exact fun h => h
  | cons item items ih =>
    exact fun h => ih (setMonitoringModeSingle_kept h a monitoringMode item.1 item.2)

/-- What holds of a value if it can be read. -/
def IfRead {A : Type} (read : Except RangeFault A) (P : A → Prop) : Prop :=
  ∀ value, read = .ok value → P value

/-- If the first sample of the new monitored item is queued, the queue size is not zero, and the
index range that is set afterwards is the empty one it has been read with. -/
def FirstSampleFits (config : Config) (enc : Encoder W) (timestampsToReturn : UInt32)
    (request : MonitoredItemCreateRequest) (answers : CreateAnswers W) : Prop :=
  IfRead ((newSettings timestampsToReturn request answers.registered).readValue answers.read)
    fun value =>
      accepts enc.ofSamples answers.sampleAllocs
          (newMonitoredItem config request.requestedParameters 0 0) value →
        config.queueSizeLimits.setWithBounds request.requestedParameters.queueSize ≠ 0 ∧
          (answers.rangeCopied → request.itemToMonitor.indexRange = [])

/-- An item of a CreateMonitoredItems is refused, or its node id is copied and its first sample, if
there is one, fits. -/
def CreateFits (config : Config) (enc : Encoder W) (timestampsToReturn : UInt32)
    (request : MonitoredItemCreateRequest) (answers : CreateAnswers W) : Prop :=
  IfRead answers.exampleRead fun status =>
    checkItemToMonitor request.itemToMonitor status = StatusCode.good → answers.newMon →
      answers.nodeIdCopied ∧
        (request.monitoringMode = monitoringModeReporting →
          FirstSampleFits config enc timestampsToReturn request answers)

theorem itemAt_addItem {a : Nat} {timestampsToReturn : UInt32}
    {request : MonitoredItemCreateRequest} {registered : Bool} {mon : MonitoredItem (Sample W)}
    (h : itemAt (addItem config s a timestampsToReturn request registered).session a
      s.session.nextAddr = some mon) :
    ∃ itemId, mon =
      newMonitoredItem config request.requestedParameters s.session.nextAddr itemId := by
  obtain ⟨sub', hsub', hmon⟩ := Option.bind_eq_some_iff.mp h
  have hself := @subscriptionAt_modifySubscription_self _ a
    (Subscription.addMonitoredItem config request.requestedParameters s.session.nextAddr)
    { s.session with nextAddr := s.session.nextAddr + 1 } fun _ haddr => haddr
  obtain ⟨sub, -, rfl⟩ := Option.map_eq_some_iff.mp (hself.symm.trans hsub')
  have hfirst := (Keyed.find_cons_self rfl).symm.trans hmon
  exact ⟨sub.lastMonitoredItemId + 1, (Option.some.inj hfirst).symm⟩

theorem serviceCreateMonitoredItemsSingle_spec [Inhabited W] (h : Kept s.targets s.session)
    (a : Nat) {timestampsToReturn : UInt32} {request : MonitoredItemCreateRequest}
    {answers : CreateAnswers W} (hfits : CreateFits config enc timestampsToReturn request answers) :
    (∃ fault, serviceCreateMonitoredItemsSingle config enc s a timestampsToReturn request answers =
      .error (.read fault)) ∨
      ∃ s' result outputs,
        serviceCreateMonitoredItemsSingle config enc s a timestampsToReturn request answers =
          .ok (s', result, outputs) ∧ Kept s'.targets s'.session ∧ Trimmed outputs := by
  unfold serviceCreateMonitoredItemsSingle
  split
  · rename_i fault _
    exact Or.inl ⟨fault, rfl⟩
  rename_i status hstatus
  dsimp only
  split
  · exact Or.inr ⟨s, _, [], rfl, h, trimmed_nil⟩
  rename_i hgood
  split
  · exact Or.inr ⟨s, _, [], rfl, h, trimmed_nil⟩
  rename_i hnew
  obtain ⟨hcopied, hfirst⟩ :=
    hfits status hstatus (Decidable.not_not.mp hgood) (Decidable.not_not.mp hnew)
  rw [if_neg (not_not_intro hcopied)]
  -- what the item will read once it has its index range
  let indexRange := if answers.rangeCopied then request.itemToMonitor.indexRange else []
  let added := addItem config s a timestampsToReturn request answers.registered
  let final := added.setIndexRange s.session.nextAddr indexRange
  have hadded : Kept final.targets added.session := by
    have hretarget : Kept final.targets s.session := by
      refine h.retarget fun m hm => ?_
      have hne : m ≠ s.session.nextAddr := Nat.ne_of_lt hm
      simp [final, added, Monitored.targets, Monitored.setIndexRange, Monitored.setSettings,
        addItem, hne]
    exact hretarget.changes (.createMonitoredItem s.session a request.requestedParameters)
  by_cases hreporting : request.monitoringMode = monitoringModeReporting
  · rw [if_pos hreporting]
    have hsettings : added.settings s.session.nextAddr =
        newSettings timestampsToReturn request answers.registered := by
      simp [added, addItem, Monitored.setSettings]
    have hfit : ∀ mon, itemAt added.session a s.session.nextAddr = some mon →
        ∀ value, (added.settings s.session.nextAddr).readValue answers.read = .ok value →
          SampleFits enc.ofSamples answers.sampleAllocs mon value ∧
            (accepts enc.ofSamples answers.sampleAllocs mon value →
              final.targets s.session.nextAddr = added.targets s.session.nextAddr) := by
      intro mon hmon value hvalue
      obtain ⟨itemId, rfl⟩ := itemAt_addItem hmon
      have hfit := hfirst hreporting value (hsettings ▸ hvalue)
      refine ⟨⟨Nat.zero_le _, fun haccepts => (hfit haccepts).1⟩, fun haccepts => ?_⟩
      have hrange : indexRange = [] := by
        cases hcopy : answers.rangeCopied with
        | false => simp [indexRange, hcopy]
        | true => simpa [indexRange, hcopy] using (hfit haccepts).2 hcopy
      simp [final, Monitored.targets, Monitored.setIndexRange, Monitored.setSettings, hsettings,
        hrange, ItemSettings.readValueId, newSettings]
    obtain ⟨fault, hfault⟩ | ⟨session, outputs, hsample, hkept, htrimmed⟩ :=
      sampleItem_spec hadded hfit
    · rw [hfault]
      exact Or.inl ⟨fault, rfl⟩
    · rw [hsample]
      exact Or.inr ⟨_, _, outputs, rfl, hkept, htrimmed⟩
  · rw [if_neg hreporting]
    exact Or.inr ⟨_, _, [], rfl, hadded, trimmed_nil⟩

theorem createItems_spec [Inhabited W] {a : Nat} {timestampsToReturn : UInt32}
    (items : List (MonitoredItemCreateRequest × CreateAnswers W)) :
    ∀ {s : Monitored W}, Kept s.targets s.session →
      (∀ item ∈ items, CreateFits config enc timestampsToReturn item.1 item.2) →
      (∃ fault, createItems config enc a timestampsToReturn s items = .error (.read fault)) ∨
        ∃ s' results outputs,
          createItems config enc a timestampsToReturn s items = .ok (s', results, outputs) ∧
            Kept s'.targets s'.session ∧ Trimmed outputs := by
  induction items with
  | nil => exact fun h _ => Or.inr ⟨_, _, _, rfl, h, trimmed_nil⟩
  | cons item items ih =>
    intro s h hfits
    unfold createItems
    obtain ⟨fault, hfault⟩ | ⟨s₁, result, outputs, hsingle, hkept, htrimmed⟩ :=
      serviceCreateMonitoredItemsSingle_spec h a (hfits item List.mem_cons_self)
    · rw [hfault]
      exact Or.inl ⟨fault, rfl⟩
    rw [hsingle]
    dsimp only
    obtain ⟨fault, hfault⟩ | ⟨s₂, results, outputs', hitems, hkept', htrimmed'⟩ :=
      ih hkept fun item hitem => hfits item (List.mem_cons_of_mem _ hitem)
    · rw [hfault]
      exact Or.inl ⟨fault, rfl⟩
    · rw [hitems]
      exact Or.inr ⟨s₂, result :: results, outputs ++ outputs', rfl, hkept',
        htrimmed.append htrimmed'⟩

theorem forItems_spec [Inhabited W] (h : Kept s.targets s.session)
    {subscriptionId timestampsToReturn : UInt32}
    {size : Nat} {alloc : Bool} {serve : Nat → Monitored W → Outcome W}
    (hserve : timestampsToReturn ≤ timestampsToReturnNeither →
      getSubscriptionByID s.session subscriptionId ≠ none → alloc →
        ∀ a (s' : Monitored W), Kept s'.targets s'.session → StaysWithin (serve a s')) :
    StaysWithin (forItems s subscriptionId timestampsToReturn size alloc serve) := by
  unfold forItems
  split
  · exact staysWithin_fault h _
  rename_i htimestamps
  split
  · exact staysWithin_fault h _
  rename_i sub hsub
  have hreset : Kept s.targets (s.session.modifySubscription sub.addr fun sub =>
      { sub with currentLifetimeCount := 0 }) := by
    exact @Kept.changes W standardConfig s.targets s.session _ [] _ h
      (.settle s.session sub.addr fun _ => ⟨rfl, rfl, rfl, rfl, rfl, rfl⟩)
  dsimp only
  split
  · exact staysWithin_fault hreset _
  split
  · exact staysWithin_fault hreset _
  rename_i halloc
  exact hserve (UInt32.not_lt.mp htimestamps) (by rw [hsub]; exact nofun)
    (Decidable.not_not.mp halloc) sub.addr _ hreset

/-- A sample meets a queue that fits. The requests for new monitored items that reach the items ask
for items that fit. -/
def ItemGuard (config : Config) (enc : Encoder W) (s : Monitored W) : ItemEvent W → Prop
  | .createMonitoredItems subscriptionId timestampsToReturn items alloc =>
      s.session.channel ≠ none → timestampsToReturn ≤ timestampsToReturnNeither →
        getSubscriptionByID s.session subscriptionId ≠ none → alloc →
          ∀ item ∈ items, CreateFits config enc timestampsToReturn item.1 item.2
  | .sample a m alloc read =>
      (s.settings m).sampleJobIsRegistered → ∀ mon ∈ itemAt s.session a m,
        IfRead ((s.settings m).readValue read) (SampleFits enc.ofSamples alloc mon)
  | _ => True

theorem processDelayedCallbacks_error {sv : Server V} {ds : List Delayed} {breakdown : Breakdown}
    (h : processDelayedCallbacks ds sv = .error breakdown) : breakdown = .noChannel := by
  induction ds generalizing sv with
  | nil => cases h
  | cons d ds ih =>
    unfold processDelayedCallbacks at h
    split at h
    · rename_i breakdown' hd
      cases h
      cases d with
      | removeSecureChannelCallback c => cases hd
      | answerPublishRequestsNoSubscription =>
        unfold runDelayed answerPublishRequestsNoSubscription at hd
        dsimp only at hd
        split at hd
        · cases hd
        · split at hd
          · exact (Except.error.inj hd).symm
          · cases hd
    · split at h
      · rename_i hrest
        cases h
        exact ih hrest
      · cases h

theorem serve_spec (h : Kept s.targets s.session) {service : Monitored W → Outcome W}
    (hservice : s.session.channel ≠ none →
      let s' : Monitored W :=
        { s with session := { s.session with validTill := s.session.clock + s.session.timeout } }
      Kept s'.targets s'.session → StaysWithin (service s')) : StaysWithin (s.serve service) := by
  unfold Monitored.serve
  split
  · exact ⟨h, trimmed_nil⟩
  · rename_i c hc
    exact hservice (by rw [hc]; exact nofun) (h.congr rfl (Nat.le_refl _))

theorem itemStep_spec [Inhabited W] (h : Kept s.targets s.session) {e : ItemEvent W}
    (hguard : ItemGuard config enc s e) : StaysWithin (itemStep config enc s e) := by
  cases e with
  | createMonitoredItems subscriptionId timestampsToReturn items alloc =>
    rw [itemStep]
    apply serve_spec h
    intro hchannel _ hserved
    apply forItems_spec hserved
    intro htimestamps hsub halloc a s' hkept
    obtain ⟨fault, hfault⟩ | ⟨s₁, results, outputs, hitems, hkept', htrimmed⟩ :=
      createItems_spec items hkept (hguard hchannel htimestamps hsub halloc)
    · rw [hfault]
      trivial
    · rw [hitems]
      have hcreated : (Observation.created results : Observation W).Fits := trivial
      exact ⟨hkept', htrimmed.append (trimmed_singleton hcreated)⟩
  | modifyMonitoredItems subscriptionId timestampsToReturn items alloc =>
    rw [itemStep]
    apply serve_spec h
    intro _ _ hserved
    apply forItems_spec hserved
    intro _ _ _ a s' hkept
    exact ⟨modifyItems_kept items hkept, trimmed_singleton trivial⟩
  | setMonitoringMode subscriptionId monitoringMode items alloc =>
    rw [itemStep]
    apply serve_spec h
    intro _ s' hserved
    unfold serviceSetMonitoringMode
    split
    · exact staysWithin_fault hserved _
    split
    · exact staysWithin_fault hserved _
    split
    · exact staysWithin_fault hserved _
    · exact ⟨setMonitoringModes_kept items hserved, trimmed_singleton trivial⟩
  | sample a m alloc read =>
    change StaysWithin (sampleJob enc s a m alloc read)
    unfold sampleJob
    split
    · exact ⟨h, trimmed_nil⟩
    split
    · rename_i hregistered
      obtain ⟨fault, hfault⟩ | ⟨session, outputs, hsample, hkept, htrimmed⟩ :=
        sampleItem_spec h fun mon hmon value hvalue =>
          ⟨hguard hregistered mon hmon value hvalue, fun _ => rfl⟩
      · rw [hfault]
        trivial
      · rw [hsample]
        exact ⟨hkept, htrimmed⟩
    · exact ⟨h, trimmed_nil⟩
  | session event =>
    by_cases hitems : event.ofItems = true
    · rw [itemStep, if_pos hitems]
      exact ⟨h, trimmed_nil⟩
    · rw [itemStep, if_neg hitems]
      cases hstep : step config s.session enc.ofSamples event with
      | error breakdown =>
        cases event with
        | delayedCallbacks =>
          rw [processDelayedCallbacks_error hstep]
          trivial
        | sample a m alloc value => exact absurd rfl hitems
        | _ => cases hstep
      | ok stepped =>
        obtain ⟨session, outputs⟩ := stepped
        have hchanges := step_changes h.wellFormed
          (fun a m alloc value he => hitems (by rw [he]; rfl)) hstep
        exact ⟨h.changes hchanges, trimmed_session outputs⟩

/-- The sizes count the queues, what is queued has been read for its monitored item, and every
sample has left its queue within the queue size. -/
def WithinSettings (s : Monitored W) (rs : List (List (Observation W))) : Prop :=
  Sized s.session ∧ Owned s.targets s.session ∧ ∀ outputs ∈ rs, Trimmed outputs

/-- In every run in which no sample meets a queue that is too long already, or no queue at all, and
no first sample is taken for an index range, the monitored items stay within their settings. -/
theorem monitoredItems_within_settings [Inhabited W] (config : Config) (enc : Encoder W)
    (timeout clock : Int) (es : List (ItemEvent W))
    (hguarded : Runs.Guarded (itemStep config enc) (ItemGuard config enc)
      (Monitored.init timeout clock) es) :
    (∀ s rs, Runs.run (itemStep config enc) (Monitored.init timeout clock) es = .ok (s, rs) →
      WithinSettings s rs) ∧
      ∀ breakdown,
        Runs.run (itemStep config enc) (Monitored.init timeout clock) es = .error breakdown →
          breakdown.Elsewhere := by
  have hkeep : ∀ (s : Monitored W) e s' outputs, Kept s.targets s.session →
      ItemGuard config enc s e → itemStep config enc s e = .ok (s', outputs) →
        Kept s'.targets s'.session ∧ Trimmed outputs := by
    intro s e s' outputs hkept hguard hstep
    have hspec := itemStep_spec hkept hguard
    rwa [hstep] at hspec
  have hfail : ∀ (s : Monitored W) e breakdown, Kept s.targets s.session →
      ItemGuard config enc s e → itemStep config enc s e = .error breakdown →
        breakdown.Elsewhere := by
    intro s e breakdown hkept hguard hstep
    have hspec := itemStep_spec hkept hguard
    rwa [hstep] at hspec
  have hinit : Kept (Monitored.init timeout clock : Monitored W).targets
      (Monitored.init timeout clock : Monitored W).session := kept_init _ timeout clock
  constructor
  · intro s rs hrun
    have hkept := Runs.invariant_of_guarded
      (fun s e s' outputs h hguard hstep => (hkeep s e s' outputs h hguard hstep).1)
      es _ s rs hinit hguarded hrun
    exact ⟨hkept.sized, hkept.owned,
      Runs.replies_of_guarded hkeep es _ s rs hinit hguarded hrun⟩
  · intro breakdown hrun
    exact Runs.error_of_guarded
      (fun s e s' outputs h hguard hstep => (hkeep s e s' outputs h hguard hstep).1)
      hfail es _ breakdown hinit hguarded hrun

instance (o : Observation W) : Decidable o.Fits :=
  match o with
  | .sampled _ mon => inferInstanceAs (Decidable (mon.currentQueueSize ≤ mon.maxQueueSize))
  | .session _ | .created _ | .modified _ | .modeSet _ | .fault _ => isTrue trivial

instance (outputs : List (Observation W)) : Decidable (Trimmed outputs) :=
  inferInstanceAs (Decidable (∀ o ∈ outputs, o.Fits))

instance (s : Monitored W) (rs : List (List (Observation W))) : Decidable (WithinSettings s rs) :=
  inferInstanceAs (Decidable ((∀ sub ∈ s.session.serverSubscriptions, ∀ mon ∈ sub.monitoredItems,
      mon.currentQueueSize.toNat = mon.queue.length) ∧
    (∀ sub ∈ s.session.serverSubscriptions, ∀ mon ∈ sub.monitoredItems, ∀ qv ∈ mon.queue,
      qv.value.content.readValueId = s.targets mon.addr) ∧ ∀ outputs ∈ rs, Trimmed outputs))

instance (enc : Encoder V) (alloc : SampleAllocs) (mon : MonitoredItem V) (value : DataValue V) :
    Decidable (SampleFits enc alloc mon value) :=
  inferInstanceAs (Decidable (_ ∧ (_ → _)))

instance {A : Type} (read : Except RangeFault A) (P : A → Prop) [DecidablePred P] :
    Decidable (IfRead read P) :=
  match read with
  | .error _ => isTrue fun _ h => nomatch h
  | .ok value => decidable_of_iff (P value) ⟨fun h _ heq => Except.ok.inj heq ▸ h, fun h => h _ rfl⟩

instance (timestampsToReturn : UInt32) (request : MonitoredItemCreateRequest)
    (answers : CreateAnswers W) :
    Decidable (FirstSampleFits config enc timestampsToReturn request answers) :=
  inferInstanceAs (Decidable (IfRead _ fun _ => _ → _ ∧ (_ → _)))

instance (timestampsToReturn : UInt32) (request : MonitoredItemCreateRequest)
    (answers : CreateAnswers W) :
    Decidable (CreateFits config enc timestampsToReturn request answers) :=
  inferInstanceAs (Decidable (IfRead _ fun _ => _ → _ → _ ∧ (_ → FirstSampleFits _ _ _ _ _)))

instance [DecidableEq W] (e : ItemEvent W) : Decidable (ItemGuard config enc s e) :=
  match e with
  | .createMonitoredItems .. => inferInstanceAs (Decidable (_ → _ → _ → _ → ∀ item ∈ _, _))
  | .sample .. => inferInstanceAs (Decidable (_ → ∀ mon ∈ _, IfRead _ (SampleFits _ _ _)))
  | .modifyMonitoredItems .. | .setMonitoringMode .. | .session _ => isTrue trivial

def temperature : NodeKey := ⟨1, .numeric 42⟩

/-- The value of the variable is to be monitored, from an index range. -/
def reportTemperature (indexRange : List UInt8) (queueSize : UInt32) :
    ItemEvent Nat :=
  .createMonitoredItems 1 0
    [(⟨⟨temperature, attributeIdValue, indexRange, ⟨0, []⟩⟩, monitoringModeReporting,
        ⟨7, queueSize, true, .statusValue⟩⟩,
      ⟨.ok none, true, true, true, fun _ _ => .ok (plainValue 1), sampleGranted, true⟩)] true

/-- Three values are queued and taken one after the other, before the queue size is lowered to one
and another value is sampled. -/
def loweredQueue : List (ItemEvent Nat) :=
  [.session (.createSubscription ⟨true, 3, 1, 0⟩ true),
    reportTemperature [] 3,
    .sample 1 2 sampleGranted fun _ _ => .ok (plainValue 2),
    .sample 1 2 sampleGranted fun _ _ => .ok (plainValue 3),
    .modifyMonitoredItems 1 0 [(⟨1, ⟨7, 1, true, .statusValue⟩⟩, true)] true,
    .sample 1 2 sampleGranted fun _ _ => .ok (plainValue 4)]

/-- A monitored item is created for the second element of the value. -/
def rangedItem : List (ItemEvent Nat) :=
  [.session (.createSubscription ⟨true, 3, 1, 0⟩ true), reportTemperature [49] 3]

/-- The queue stays at three values, and the first sample of the ranged item is the whole value. -/
theorem monitoredItems_leave_settings :
    ¬ (∀ s rs, Runs.run (itemStep standardConfig byteEncoder) (Monitored.init 1000 0) loweredQueue =
      .ok (s, rs) → WithinSettings s rs) ∧
    ¬ ∀ s rs, Runs.run (itemStep standardConfig byteEncoder) (Monitored.init 1000 0) rangedItem =
      .ok (s, rs) → WithinSettings s rs := by
  have hlowered : Runs.Reaches (itemStep standardConfig byteEncoder) (Monitored.init 1000 0)
      loweredQueue fun s rs => ¬ WithinSettings s rs := by decide
  have hranged : Runs.Reaches (itemStep standardConfig byteEncoder) (Monitored.init 1000 0)
      rangedItem fun s rs => ¬ WithinSettings s rs := by decide
  obtain ⟨s, rs, hrun, hnot⟩ := hlowered
  obtain ⟨s', rs', hrun', hnot'⟩ := hranged
  exact ⟨fun h => hnot (h s rs hrun), fun h => hnot' (h s' rs' hrun')⟩

/-- The same without the modification, for the whole value. -/
theorem monitoredItems_within_settings_plain :
    Runs.Guarded (itemStep standardConfig byteEncoder) (ItemGuard standardConfig byteEncoder)
      (Monitored.init 1000 0) (loweredQueue.take 4) ∧
    ∀ s rs, Runs.run (itemStep standardConfig byteEncoder) (Monitored.init 1000 0)
      (loweredQueue.take 4) = .ok (s, rs) → WithinSettings s rs := by
  have hguarded : Runs.Guarded (itemStep standardConfig byteEncoder)
      (ItemGuard standardConfig byteEncoder) (Monitored.init 1000 0) (loweredQueue.take 4) := by
    decide
  exact ⟨hguarded, (monitoredItems_within_settings standardConfig byteEncoder 1000 0 _ hguarded).1⟩

end FactoryThing.Subscriptions
