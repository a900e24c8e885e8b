import FactoryThing.Connections.Manager
import FactoryThing.Sessions.Counting

/-!
# What leaves the pointers between channels and connections alone

Most of what the server does neither attaches nor detaches a channel. `Upkeep` collects what holds
of all of it; what is left are the functions that `Linked` and `Bookkeeping` treat one by one.
-/

namespace FactoryThing.Connections

open Sessions SecureChannel

variable {cm cm' cm'' : SecureChannelManager} {config : Config} {maxSecureChannels : UInt16}

/-- A channel has both its parts or is freed, and addresses not handed out yet are free. -/
structure Memory (cm : SecureChannelManager) : Prop where
  live : ∀ c, (cm.channelAt c).isSome = channelLive cm.server c
  freshConnection : ∀ k, cm.nextConnection ≤ k → cm.connectionAt k = none

/-- The memory of the server is in order, with the pointers between sessions and channels. -/
structure Sound (cm : SecureChannelManager) : Prop extends Memory cm where
  wellLinked : WellLinked cm.server

/-- The counters are right and within the bounds the server was configured with. -/
structure Counts (config : Config) (maxSecureChannels : UInt16) (cm : SecureChannelManager) :
    Prop where
  config_eq : cm.server.config = config
  max_eq : cm.maxSecureChannels = maxSecureChannels
  sessions : Counted cm.server
  count : cm.currentChannelCount.toNat = cm.server.channels.length
  bound : cm.server.channels.length ≤ maxSecureChannels.toNat

/-- From `cm` to `cm'` no pointer between a channel and a connection changes. -/
structure Upkeep (cm cm' : SecureChannelManager) : Prop where
  connectionOf : cm'.connectionOf = cm.connectionOf
  channelOf : cm'.channelOf = cm.channelOf
  sound : Sound cm → Sound cm'
  counts : ∀ {config maxSecureChannels}, Counts config maxSecureChannels cm →
    Counts config maxSecureChannels cm'

theorem Upkeep.refl (cm : SecureChannelManager) : Upkeep cm cm := ⟨rfl, rfl, id, id⟩

theorem Upkeep.trans (h : Upkeep cm cm') (h' : Upkeep cm' cm'') : Upkeep cm cm'' where
  connectionOf := h'.connectionOf.trans h.connectionOf
  channelOf := h'.channelOf.trans h.channelOf
  sound hs := h'.sound (h.sound hs)
  counts hc := h'.counts (h.counts hc)

theorem sound_init (config : Config) (clock : Int) (maxSecureChannels : UInt16)
    (maxSecurityTokenLifetime : UInt32) :
    Sound (SecureChannelManager.init config clock maxSecureChannels maxSecurityTokenLifetime) :=
  ⟨⟨fun _ => rfl, fun _ _ => rfl⟩, wellLinked_init config clock⟩

theorem counts_init (config : Config) (clock : Int) (maxSecureChannels : UInt16)
    (maxSecurityTokenLifetime : UInt32) :
    Counts config maxSecureChannels
      (SecureChannelManager.init config clock maxSecureChannels maxSecurityTokenLifetime) :=
  ⟨rfl, rfl, counted_init config clock, rfl, Nat.zero_le _⟩

theorem Counts.congr (h : Counts config maxSecureChannels cm) (hserver : cm'.server = cm.server)
    (hmax : cm'.maxSecureChannels = cm.maxSecureChannels)
    (hcount : cm'.currentChannelCount = cm.currentChannelCount) :
    Counts config maxSecureChannels cm' := by
  obtain ⟨hconfig, hmaxSecureChannels, hsessions, hlength, hbound⟩ := h
  constructor <;> simp only [hserver, hmax, hcount] <;> assumption

theorem isSome_modifyChannel (cm : SecureChannelManager) (c d : Nat)
    (f : ManagedChannel → ManagedChannel) :
    ((cm.modifyChannel c f).channelAt d).isSome = (cm.channelAt d).isSome := by
  unfold SecureChannelManager.modifyChannel
  by_cases hd : d = c
  · subst hd
    simp
  · simp [hd]

theorem connectionOf_modifyChannel (cm : SecureChannelManager) (c : Nat)
    (f : ManagedChannel → ManagedChannel) :
    (cm.modifyChannel c f).connectionOf =
      Function.update cm.connectionOf c
        (((cm.channelAt c).map f).bind ManagedChannel.connection) := by
  funext d
  unfold SecureChannelManager.connectionOf SecureChannelManager.modifyChannel
  by_cases hd : d = c
  · subst hd
    simp
  · simp [hd]

theorem channelOf_modifyConnection (cm : SecureChannelManager) (k : Nat)
    (f : Connection → Connection) :
    (cm.modifyConnection k f).channelOf =
      Function.update cm.channelOf k
        (((cm.connectionAt k).map f).bind Connection.channel) := by
  funext l
  unfold SecureChannelManager.channelOf SecureChannelManager.modifyConnection
  by_cases hl : l = k
  · subst hl
    simp
  · simp [hl]

theorem Memory.modifyChannel (h : Memory cm) (c : Nat) (f : ManagedChannel → ManagedChannel) :
    Memory (cm.modifyChannel c f) :=
  ⟨fun d => (isSome_modifyChannel cm c d f).trans (h.live d), h.freshConnection⟩

theorem Memory.modifyConnection (h : Memory cm) (k : Nat) (f : Connection → Connection) :
    Memory (cm.modifyConnection k f) := by
  refine ⟨h.live, fun l hl => ?_⟩
  unfold SecureChannelManager.modifyConnection
  by_cases hlk : l = k
  · subst hlk
    simp [h.freshConnection l hl]
  · simpa [hlk] using h.freshConnection l hl

theorem upkeep_modifyChannel (cm : SecureChannelManager) (c : Nat)
    {f : ManagedChannel → ManagedChannel} (hf : ∀ ch, (f ch).connection = ch.connection) :
    Upkeep cm (cm.modifyChannel c f) := by
  refine ⟨?_, rfl, fun h => ⟨h.toMemory.modifyChannel c f, h.wellLinked⟩,
    fun h => h.congr rfl rfl rfl⟩
  rw [connectionOf_modifyChannel]
  refine Function.update_eq_self_iff.mpr ?_
  unfold SecureChannelManager.connectionOf
  cases cm.channelAt c <;> simp [hf]

theorem upkeep_modifyConnection (cm : SecureChannelManager) (k : Nat) {f : Connection → Connection}
    (hf : ∀ conn, (f conn).channel = conn.channel) : Upkeep cm (cm.modifyConnection k f) := by
  refine ⟨rfl, ?_, fun h => ⟨h.toMemory.modifyConnection k f, h.wellLinked⟩,
    fun h => h.congr rfl rfl rfl⟩
  rw [channelOf_modifyConnection]
  refine Function.update_eq_self_iff.mpr ?_
  unfold SecureChannelManager.channelOf
  cases cm.connectionAt k <;> simp [hf]

theorem upkeep_closeConnection (cm : SecureChannelManager) (k : Nat) :
    Upkeep cm (closeConnection cm k) :=
  upkeep_modifyConnection cm k fun _ => rfl

theorem upkeep_server (cm : SecureChannelManager) {sv : Server}
    (hwell : WellLinked cm.server → WellLinked sv) (hwork : SessionWork cm.server sv) :
    Upkeep cm { cm with server := sv } := by
  refine ⟨rfl, rfl, fun h => ?_, fun h => ?_⟩
  · exact ⟨⟨fun c => (h.live c).trans (hwork.channelLive c).symm, h.freshConnection⟩,
      hwell h.wellLinked⟩
  · refine ⟨hwork.config.trans h.config_eq, h.max_eq, hwork.counted h.sessions, ?_, ?_⟩
    · rw [hwork.channels]
      exact h.count
    · rw [hwork.channels]
      exact h.bound

theorem removeSecureChannel_of_mem {sv : Server} {c : Nat} (hc : c ∈ sv.channels) :
    removeSecureChannel sv c true =
      { sv with
        delayedCallbacks := .removeSecureChannelCallback c :: sv.delayedCallbacks
        channels := sv.channels.erase c } :=
  if_pos ⟨hc, rfl⟩

theorem upkeep_removeChannel {c : Nat} (hc : c ∈ cm.server.channels) (alloc : Bool) :
    Upkeep cm (removeChannel cm c alloc) := by
  unfold removeChannel
  split
  · refine ⟨rfl, rfl, fun h => ?_, fun h => ?_⟩
    · have hwell := h.wellLinked.removeSecureChannel c true
      rw [removeSecureChannel_of_mem hc] at hwell ⊢
      exact ⟨⟨h.live, h.freshConnection⟩, hwell⟩
    · have hlength := List.length_erase_of_mem hc
      have hpos := List.length_pos_of_mem hc
      have hcount := h.count
      have hone : (1 : UInt32) ≤ cm.currentChannelCount := by
        rw [UInt32.le_iff_toNat_le, hcount]
        exact hpos
      rw [removeSecureChannel_of_mem hc]
      refine ⟨h.config_eq, h.max_eq, ⟨h.sessions.count, h.sessions.bound⟩, ?_, ?_⟩
      · rw [hlength, UInt32.toNat_sub_of_le _ _ hone, hcount]
        rfl
      · rw [hlength]
        exact Nat.le_trans (Nat.sub_le _ _) h.bound
  · exact Upkeep.refl cm

theorem mem_removeChannel {c d : Nat} {alloc : Bool} (hne : d ≠ c)
    (hd : d ∈ cm.server.channels) : d ∈ (removeChannel cm c alloc).server.channels := by
  unfold removeChannel removeSecureChannel
  split
  · split
    · exact (List.mem_erase_of_ne hne).mpr hd
    · exact hd
  · exact hd

theorem upkeep_revolveChannel (cm : SecureChannelManager) (c : Nat) :
    Upkeep cm (revolveChannel cm c) := by
  refine upkeep_modifyChannel cm c fun ch => ?_
  split <;> rfl

theorem upkeep_cleanupChannel {c : Nat} (hc : c ∈ cm.server.channels) (alloc : Bool) :
    Upkeep cm (cleanupChannel cm c alloc) := by
  unfold cleanupChannel
  split
  · exact Upkeep.refl cm
  · split
    · exact upkeep_removeChannel hc alloc
    · split
      · exact upkeep_revolveChannel cm c
      · exact Upkeep.refl cm

theorem upkeep_cleanupChannels (hnodup : cm.server.channels.Nodup) (alloc : Nat → Bool) :
    Upkeep cm (cleanupChannels cm alloc) := by
  suffices hloop : ∀ (cs : List Nat) (cm : SecureChannelManager), cs.Nodup →
      (∀ c ∈ cs, c ∈ cm.server.channels) →
        Upkeep cm (cs.foldl (fun cm c => cleanupChannel cm c (alloc c)) cm) from
    hloop cm.server.channels cm hnodup fun _ => id
  intro cs
  induction cs with
  | nil => exact fun cm _ _ => Upkeep.refl cm
  | cons c cs ih =>
    intro cm hnodup hmem
    obtain ⟨hnot, hnodup⟩ := List.nodup_cons.mp hnodup
    refine (upkeep_cleanupChannel (hmem c List.mem_cons_self) (alloc c)).trans ?_
    refine ih _ hnodup fun d hd => ?_
    have hne : d ≠ c := fun heq => hnot (heq ▸ hd)
    have hold := hmem d (List.mem_cons_of_mem c hd)
    unfold cleanupChannel
    split
    · exact hold
    · split
      · exact mem_removeChannel hne hold
      · split <;> exact hold

theorem upkeep_purge (cm : SecureChannelManager) (alloc : Bool) :
    Upkeep cm (purgeFirstChannelWithoutSession cm alloc).1 := by
  unfold purgeFirstChannelWithoutSession
  split
  · exact Upkeep.refl cm
  · rename_i channel hfind
    exact upkeep_removeChannel (List.mem_of_find?_eq_some hfind) alloc

theorem upkeep_managerClose (cm : SecureChannelManager) (channelId : UInt32) (alloc : Bool) :
    Upkeep cm (managerClose cm channelId alloc).1 := by
  unfold managerClose
  split
  · exact Upkeep.refl cm
  · rename_i channel hfind
    exact upkeep_removeChannel (List.mem_of_find?_eq_some hfind) alloc

theorem upkeep_managerRenew (cm : SecureChannelManager) (k : Nat)
    (request : OpenSecureChannelRequest) : Upkeep cm (managerRenew cm k request).1 := by
  unfold managerRenew
  split
  · exact Upkeep.refl cm
  · rename_i channel _
    have hissue : Upkeep cm { cm with lastTokenId := cm.lastTokenId + 1 } :=
      ⟨rfl, rfl, fun h => ⟨⟨h.live, h.freshConnection⟩, h.wellLinked⟩,
        fun h => h.congr rfl rfl rfl⟩
    dsimp only
    split
    · exact hissue.trans (upkeep_modifyChannel _ channel fun _ => rfl)
    · exact upkeep_modifyChannel cm channel fun _ => rfl

end FactoryThing.Connections
