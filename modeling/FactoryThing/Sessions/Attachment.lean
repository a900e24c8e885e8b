import FactoryThing.Sessions.Dispatch
import Mathlib.Tactic

/-!
# No dangling sessions and channels

In every state of the server a session is in the list of a channel exactly when it points to that
channel, and neither the lists nor the pending callbacks lead to freed memory. Each function of the
session manager keeps this, whatever the order of their calls.
-/

namespace FactoryThing.Sessions

variable {sv sv' : Server}

/-- `session->channel` of a session in memory. -/
def chan (sv : Server) (s : Nat) : Option Nat := (sv.sessionAt s).bind Session.channel

def live (sv : Server) (s : Nat) : Bool := (sv.sessionAt s).isSome

/-- The sessions in the list of a channel. -/
def entries (sv : Server) (c : Nat) : List Nat := ((sv.channelAt c).map Channel.sessions).getD []

def channelLive (sv : Server) (c : Nat) : Bool := (sv.channelAt c).isSome

/-- A server whose pointers are in order. -/
structure WellLinked (sv : Server) : Prop where
  mem_entries_iff : ∀ s c, s ∈ entries sv c ↔ chan sv s = some c
  entries_nodup : ∀ c, (entries sv c).Nodup
  sessions_live : ∀ s ∈ sv.sessions, live sv s = true
  sessions_nodup : sv.sessions.Nodup
  pending : ∀ s, .removeSessionCallback s ∈ sv.delayedCallbacks →
    live sv s = true ∧ s ∉ sv.sessions
  channels_live : ∀ c ∈ sv.channels, channelLive sv c = true
  channels_nodup : sv.channels.Nodup
  pending_channel : ∀ c, .removeSecureChannelCallback c ∈ sv.delayedCallbacks →
    channelLive sv c = true ∧ c ∉ sv.channels
  delayed_nodup : sv.delayedCallbacks.Nodup
  fresh : ∀ a, sv.nextAddr ≤ a → live sv a = false ∧ channelLive sv a = false

theorem wellLinked_init (config : Config) (clock : Int) :
    WellLinked (Server.init config clock) := by
  constructor <;> simp [Server.init, entries, chan, live, channelLive]

section Writes

variable (sv) (s t c d : Nat) (f : Session → Session) (g : List Nat → List Nat)

theorem chan_modifySession : chan (sv.modifySession s f) t =
    if t = s then ((sv.sessionAt s).map f).bind Session.channel else chan sv t := by
  unfold chan Server.modifySession
  by_cases h : t = s <;> simp [h]

@[simp] theorem live_modifySession : live (sv.modifySession s f) t = live sv t := by
  unfold live Server.modifySession
  by_cases h : t = s <;> simp [h]

@[simp] theorem entries_modifySession : entries (sv.modifySession s f) c = entries sv c := rfl
@[simp] theorem channelLive_modifySession :
    channelLive (sv.modifySession s f) c = channelLive sv c := rfl
@[simp] theorem sessions_modifySession : (sv.modifySession s f).sessions = sv.sessions := rfl
@[simp] theorem channels_modifySession : (sv.modifySession s f).channels = sv.channels := rfl
@[simp] theorem delayed_modifySession :
    (sv.modifySession s f).delayedCallbacks = sv.delayedCallbacks := rfl
@[simp] theorem nextAddr_modifySession : (sv.modifySession s f).nextAddr = sv.nextAddr := rfl

@[simp] theorem chan_modifyChannel : chan (sv.modifyChannel c g) s = chan sv s := rfl
@[simp] theorem live_modifyChannel : live (sv.modifyChannel c g) s = live sv s := rfl
@[simp] theorem channelLive_modifyChannel :
    channelLive (sv.modifyChannel c g) d = channelLive sv d := by
  unfold channelLive Server.modifyChannel
  by_cases h : d = c <;> simp [h]

theorem entries_modifyChannel (hc : channelLive sv c = true) :
    entries (sv.modifyChannel c g) d = if d = c then g (entries sv c) else entries sv d := by
  obtain ⟨ch, hch⟩ := Option.isSome_iff_exists.1 hc
  unfold entries Server.modifyChannel
  by_cases h : d = c <;> simp [h, hch]

@[simp] theorem sessions_modifyChannel : (sv.modifyChannel c g).sessions = sv.sessions := rfl
@[simp] theorem channels_modifyChannel : (sv.modifyChannel c g).channels = sv.channels := rfl
@[simp] theorem delayed_modifyChannel :
    (sv.modifyChannel c g).delayedCallbacks = sv.delayedCallbacks := rfl
@[simp] theorem nextAddr_modifyChannel : (sv.modifyChannel c g).nextAddr = sv.nextAddr := rfl

end Writes

theorem live_of_chan {s c : Nat} (h : chan sv s = some c) : live sv s = true := by
  unfold chan at h
  unfold live
  cases hs : sv.sessionAt s with
  | none => rw [hs] at h; cases h
  | some ses => rfl

theorem channelLive_of_mem {s c : Nat} (h : s ∈ entries sv c) : channelLive sv c = true := by
  unfold entries at h
  unfold channelLive
  cases hc : sv.channelAt c with
  | none => rw [hc] at h; cases h
  | some ch => rfl

theorem WellLinked.congr (h : WellLinked sv) (hchan : ∀ s, chan sv' s = chan sv s)
    (hlive : ∀ s, live sv' s = live sv s) (hentries : ∀ c, entries sv' c = entries sv c)
    (hchannel : ∀ c, channelLive sv' c = channelLive sv c) (hsessions : sv'.sessions = sv.sessions)
    (hchannels : sv'.channels = sv.channels)
    (hdelayed : sv'.delayedCallbacks = sv.delayedCallbacks) (hnext : sv'.nextAddr = sv.nextAddr) :
    WellLinked sv' := by
  obtain ⟨h1, h2, h3, h4, h5, h6, h7, h8, h9, h10⟩ := h
  constructor <;> simp only [hchan, hlive, hentries, hchannel, hsessions, hchannels, hdelayed,
    hnext] <;> assumption

theorem WellLinked.modifySession (h : WellLinked sv) (s : Nat) {f : Session → Session}
    (hf : ∀ ses, (f ses).channel = ses.channel) : WellLinked (sv.modifySession s f) := by
  refine h.congr ?_ (by simp) (by simp) (by simp) rfl rfl rfl rfl
  intro t
  rw [chan_modifySession]
  split
  · rename_i heq
    subst heq
    unfold chan
    cases sv.sessionAt t <;> simp [hf]
  · rfl

theorem WellLinked.updateLifetime (h : WellLinked sv) (s : Nat) :
    WellLinked (updateLifetime sv s) :=
  h.modifySession s fun _ => rfl

theorem WellLinked.attachSession (h : WellLinked sv) {c : Nat} (hc : channelLive sv c = true)
    (s : Nat) (alloc : Bool) : WellLinked (attachSession sv c s alloc) := by
  unfold Sessions.attachSession
  split
  · split
    · exact h
    · rename_i ses hses
      split
      · exact h
      · rename_i hnone
        have hchan : chan sv s = none := by simp [chan, hses, hnone]
        have hnot : ∀ d, s ∉ entries sv d := fun d hmem => by
          rw [h.mem_entries_iff, hchan] at hmem; cases hmem
        constructor
        case mem_entries_iff =>
          intro t d
          rw [entries_modifyChannel _ _ _ _ (by simpa using hc), chan_modifyChannel,
            chan_modifySession]
          simp only [entries_modifySession, hses, Option.map_some, Option.bind_some]
          by_cases ht : t = s
          · subst ht
            by_cases hd : d = c
            · simp [hd]
            · simpa [hd, Ne.symm hd] using hnot d
          · by_cases hd : d = c
            · simpa [hd, ht] using h.mem_entries_iff t c
            · simpa [hd, ht] using h.mem_entries_iff t d
        case entries_nodup =>
          intro d
          rw [entries_modifyChannel _ _ _ _ (by simpa using hc)]
          split
          · simpa using ⟨hnot c, h.entries_nodup c⟩
          · simpa using h.entries_nodup d
        case sessions_live => simpa using h.sessions_live
        case sessions_nodup => exact h.sessions_nodup
        case pending => simpa using h.pending
        case channels_live => simpa using h.channels_live
        case channels_nodup => exact h.channels_nodup
        case pending_channel => simpa using h.pending_channel
        case delayed_nodup => exact h.delayed_nodup
        case fresh => simpa using h.fresh
  · exact h

theorem WellLinked.detachSession (h : WellLinked sv) {c s : Nat} (hs : chan sv s = some c) :
    WellLinked (detachSession sv c s) := by
  have hmem := (h.mem_entries_iff s c).2 hs
  have hc := channelLive_of_mem hmem
  have hlive := live_of_chan hs
  unfold Sessions.detachSession
  constructor
  case mem_entries_iff =>
    intro t d
    rw [entries_modifyChannel _ _ _ _ (by simpa using hc), chan_modifyChannel, chan_modifySession]
    simp only [entries_modifySession]
    by_cases ht : t = s
    · subst ht
      have hgone : ((sv.sessionAt t).map fun ses => { ses with channel := none }).bind
          Session.channel = none := by cases sv.sessionAt t <;> rfl
      rw [if_pos rfl, hgone]
      by_cases hd : d = c
      · subst hd
        simp [(h.entries_nodup d).mem_erase_iff]
      · have : t ∉ entries sv d := fun hmem' => by
          rw [h.mem_entries_iff, hs] at hmem'
          exact hd (Option.some.inj hmem').symm
        simpa [hd] using this
    · rw [if_neg ht]
      by_cases hd : d = c
      · subst hd
        rw [if_pos rfl, List.mem_erase_of_ne ht, h.mem_entries_iff]
      · rw [if_neg hd, h.mem_entries_iff]
  case entries_nodup =>
    intro d
    rw [entries_modifyChannel _ _ _ _ (by simpa using hc)]
    split
    · exact (h.entries_nodup c).erase s
    · exact h.entries_nodup d
  case sessions_live => simpa using h.sessions_live
  case sessions_nodup => exact h.sessions_nodup
  case pending => simpa using h.pending
  case channels_live => simpa using h.channels_live
  case channels_nodup => exact h.channels_nodup
  case pending_channel => simpa using h.pending_channel
  case delayed_nodup => exact h.delayed_nodup
  case fresh => simpa using h.fresh

theorem WellLinked.removeSession (h : WellLinked sv) {s : Nat} (hs : s ∈ sv.sessions)
    (alloc : Bool) : WellLinked (removeSession sv s alloc).1 := by
  have h₁ := h.modifySession s (f := fun ses => { ses with activated := false }) fun _ => rfl
  unfold Sessions.removeSession
  split
  · have hlive := h₁.sessions_live s hs
    obtain ⟨h1, h2, h3, h4, h5, h6, h7, h8, h9, h10⟩ := h₁
    constructor
    case mem_entries_iff => exact h1
    case entries_nodup => exact h2
    case sessions_live => exact fun t ht => h3 t (List.mem_of_mem_erase ht)
    case sessions_nodup => exact h4.erase s
    case pending =>
      intro t ht
      rcases List.mem_cons.1 ht with heq | ht
      · cases heq
        exact ⟨hlive, h4.not_mem_erase⟩
      · exact ⟨(h5 t ht).1, fun hmem => (h5 t ht).2 (List.mem_of_mem_erase hmem)⟩
    case channels_live => exact h6
    case channels_nodup => exact h7
    case pending_channel =>
      intro c hc
      rcases List.mem_cons.1 hc with heq | hc
      · cases heq
      · exact h8 c hc
    case delayed_nodup =>
      exact List.nodup_cons.2 ⟨fun hmem => (h5 s hmem).2 hs, h9⟩
    case fresh => exact h10
  · exact h₁

theorem WellLinked.sessionManagerRemoveSession (h : WellLinked sv) (token : NodeId)
    (alloc : Bool) : WellLinked (sessionManagerRemoveSession sv token alloc).1 := by
  unfold Sessions.sessionManagerRemoveSession
  split
  · exact h
  · rename_i s hfind
    exact h.removeSession (List.mem_of_find?_eq_some hfind) alloc

theorem mem_removeSession {s t : Nat} {alloc : Bool} (hts : t ≠ s) (ht : t ∈ sv.sessions) :
    t ∈ (removeSession sv s alloc).1.sessions := by
  unfold removeSession
  split
  · exact (List.mem_erase_of_ne hts).2 ht
  · exact ht

theorem WellLinked.cleanupTimedOut (h : WellLinked sv) (alloc : Nat → Bool) :
    WellLinked (cleanupTimedOut sv alloc) := by
  unfold Sessions.cleanupTimedOut
  -- the loop has the entries still to be visited in the list
  suffices hloop : ∀ (ss : List Nat) (sv : Server), WellLinked sv → ss.Nodup →
      (∀ s ∈ ss, s ∈ sv.sessions) → WellLinked (ss.foldl
        (fun sv s => if timedOut sv s then (Sessions.removeSession sv s (alloc s)).1 else sv) sv) by
    exact hloop sv.sessions sv h h.sessions_nodup fun _ => id
  intro ss
  induction ss with
  | nil => intro sv h _ _; exact h
  | cons s ss ih =>
    intro sv h hnodup hmem
    rw [List.foldl_cons]
    have hs := hmem s List.mem_cons_self
    have hrest : ∀ t ∈ ss, t ≠ s := fun t ht heq =>
      (List.nodup_cons.1 hnodup).1 (heq ▸ ht)
    split
    · exact ih _ (h.removeSession hs _) (List.nodup_cons.1 hnodup).2 fun t ht =>
        mem_removeSession (hrest t ht) (hmem t (List.mem_cons_of_mem _ ht))
    · exact ih _ h (List.nodup_cons.1 hnodup).2 fun t ht => hmem t (List.mem_cons_of_mem _ ht)

theorem WellLinked.createSession (h : WellLinked sv) (requestedSessionTimeout : Rat)
    (sessionId token : NodeId) (alloc : Bool) :
    WellLinked (createSession sv requestedSessionTimeout sessionId token alloc).1 := by
  unfold Sessions.createSession
  split
  · exact h
  · split
    · apply WellLinked.updateLifetime
      have hfree := (h.fresh sv.nextAddr le_rfl).1
      have hnochan : chan sv sv.nextAddr = none := by
        by_contra hsome
        obtain ⟨c, hc⟩ := Option.ne_none_iff_exists'.1 hsome
        rw [live_of_chan hc] at hfree
        cases hfree
      have hother : ∀ s, live sv s = true → s ≠ sv.nextAddr := by
        rintro s hs rfl
        rw [hfree] at hs
        cases hs
      constructor
      case mem_entries_iff =>
        intro s c
        by_cases hs : s = sv.nextAddr
        · subst hs
          have hno : sv.nextAddr ∉ entries sv c := fun hmem => by
            rw [h.mem_entries_iff, hnochan] at hmem; cases hmem
          simpa [chan, entries] using hno
        · have := h.mem_entries_iff s c
          simpa [chan, entries, hs] using this
      case entries_nodup => exact h.entries_nodup
      case sessions_live =>
        intro s hs
        rcases List.mem_cons.1 hs with rfl | hs
        · simp [live]
        · have hlive := h.sessions_live s hs
          simpa [live, hother s hlive] using hlive
      case sessions_nodup =>
        exact List.nodup_cons.2
          ⟨fun hmem => hother _ (h.sessions_live _ hmem) rfl, h.sessions_nodup⟩
      case pending =>
        intro s hs
        obtain ⟨hlive, hnot⟩ := h.pending s hs
        have hne := hother s hlive
        refine ⟨by simpa [live, hne] using hlive, ?_⟩
        simpa [hne] using hnot
      case channels_live => exact h.channels_live
      case channels_nodup => exact h.channels_nodup
      case pending_channel => exact h.pending_channel
      case delayed_nodup => exact h.delayed_nodup
      case fresh =>
        intro a ha
        have hne : a ≠ sv.nextAddr := by simp only [] at ha; omega
        have := h.fresh a (by simp only [] at ha; omega)
        simpa [live, channelLive, hne] using this
    · exact h

theorem WellLinked.openChannel (h : WellLinked sv) (channelId : UInt32) :
    WellLinked (openChannel sv channelId) := by
  unfold Sessions.openChannel
  have hfree := (h.fresh sv.nextAddr le_rfl).2
  have hother : ∀ c, channelLive sv c = true → c ≠ sv.nextAddr := by
    rintro c hc rfl
    rw [hfree] at hc
    cases hc
  constructor
  case mem_entries_iff =>
    intro s c
    by_cases hc : c = sv.nextAddr
    · subst hc
      have hno : chan sv s ≠ some sv.nextAddr := fun hsome => by
        rw [← h.mem_entries_iff] at hsome
        exact hother _ (channelLive_of_mem hsome) rfl
      simpa [entries, chan] using hno
    · have := h.mem_entries_iff s c
      simpa [entries, chan, hc] using this
  case entries_nodup =>
    intro c
    by_cases hc : c = sv.nextAddr
    · simp [entries, hc]
    · have := h.entries_nodup c
      simpa [entries, hc] using this
  case sessions_live => exact h.sessions_live
  case sessions_nodup => exact h.sessions_nodup
  case pending => exact h.pending
  case channels_live =>
    intro c hc
    rcases List.mem_cons.1 hc with rfl | hc
    · simp [channelLive]
    · have hlive := h.channels_live c hc
      simpa [channelLive, hother c hlive] using hlive
  case channels_nodup =>
    exact List.nodup_cons.2 ⟨fun hmem => hother _ (h.channels_live _ hmem) rfl, h.channels_nodup⟩
  case pending_channel =>
    intro c hc
    obtain ⟨hlive, hnot⟩ := h.pending_channel c hc
    have hne := hother c hlive
    exact ⟨by simpa [channelLive, hne] using hlive, by simpa [hne] using hnot⟩
  case delayed_nodup => exact h.delayed_nodup
  case fresh =>
    intro a ha
    have hne : a ≠ sv.nextAddr := by simp only [] at ha; omega
    have := h.fresh a (by simp only [] at ha; omega)
    simpa [live, channelLive, hne] using this

theorem WellLinked.removeSecureChannel (h : WellLinked sv) (c : Nat) (alloc : Bool) :
    WellLinked (removeSecureChannel sv c alloc) := by
  unfold Sessions.removeSecureChannel
  split
  · rename_i hc
    have hlive := h.channels_live c hc.1
    constructor
    case mem_entries_iff => exact h.mem_entries_iff
    case entries_nodup => exact h.entries_nodup
    case sessions_live => exact h.sessions_live
    case sessions_nodup => exact h.sessions_nodup
    case pending =>
      intro s hs
      rcases List.mem_cons.1 hs with heq | hs
      · cases heq
      · exact h.pending s hs
    case channels_live => exact fun d hd => h.channels_live d (List.mem_of_mem_erase hd)
    case channels_nodup => exact h.channels_nodup.erase c
    case pending_channel =>
      intro d hd
      rcases List.mem_cons.1 hd with heq | hd
      · cases heq
        exact ⟨hlive, h.channels_nodup.not_mem_erase⟩
      · obtain ⟨hl, hnot⟩ := h.pending_channel d hd
        exact ⟨hl, fun hmem => hnot (List.mem_of_mem_erase hmem)⟩
    case delayed_nodup =>
      exact List.nodup_cons.2 ⟨fun hmem => (h.pending_channel c hmem).2 hc.1, h.delayed_nodup⟩
    case fresh => exact h.fresh
  · exact h

theorem WellLinked.takeDelayed {d : Delayed} {ds : List Delayed} (h : WellLinked sv)
    (hd : sv.delayedCallbacks = d :: ds) :
    WellLinked { sv with delayedCallbacks := ds } ∧ d ∉ ds := by
  have hnodup := List.nodup_cons.1 (hd ▸ h.delayed_nodup)
  have hsub : ∀ d' ∈ ds, d' ∈ sv.delayedCallbacks := fun d' hd' => by
    rw [hd]; exact List.mem_cons_of_mem _ hd'
  refine ⟨?_, hnodup.1⟩
  constructor
  case mem_entries_iff => exact h.mem_entries_iff
  case entries_nodup => exact h.entries_nodup
  case sessions_live => exact h.sessions_live
  case sessions_nodup => exact h.sessions_nodup
  case pending => exact fun s hs => h.pending s (hsub _ hs)
  case channels_live => exact h.channels_live
  case channels_nodup => exact h.channels_nodup
  case pending_channel => exact fun c hc => h.pending_channel c (hsub _ hc)
  case delayed_nodup => exact hnodup.2
  case fresh => exact h.fresh

theorem WellLinked.freeSession (h : WellLinked sv) {s : Nat} (hchan : chan sv s = none)
    (hlist : s ∉ sv.sessions) (hpending : .removeSessionCallback s ∉ sv.delayedCallbacks) :
    WellLinked { sv with sessionAt := Function.update sv.sessionAt s none } := by
  constructor
  case mem_entries_iff =>
    intro t c
    by_cases ht : t = s
    · subst ht
      have hno : t ∉ entries sv c := fun hmem => by
        rw [h.mem_entries_iff, hchan] at hmem; cases hmem
      simpa [chan, entries] using hno
    · have := h.mem_entries_iff t c
      simpa [chan, entries, ht] using this
  case entries_nodup => exact h.entries_nodup
  case sessions_live =>
    intro t ht
    have hne : t ≠ s := fun heq => hlist (heq ▸ ht)
    have := h.sessions_live t ht
    simpa [live, hne] using this
  case sessions_nodup => exact h.sessions_nodup
  case pending =>
    intro t ht
    have hne : t ≠ s := fun heq => hpending (heq ▸ ht)
    have := h.pending t ht
    simpa [live, hne] using this
  case channels_live => exact h.channels_live
  case channels_nodup => exact h.channels_nodup
  case pending_channel => exact h.pending_channel
  case delayed_nodup => exact h.delayed_nodup
  case fresh =>
    intro a ha
    have := h.fresh a ha
    by_cases hne : a = s
    · simpa [live, hne, channelLive] using (h.fresh s (hne ▸ ha)).2
    · simpa [live, hne, channelLive] using this

theorem WellLinked.removeSessionCallback (h : WellLinked sv) {s : Nat} (hlist : s ∉ sv.sessions)
    (hpending : .removeSessionCallback s ∉ sv.delayedCallbacks) :
    WellLinked (removeSessionCallback sv s) := by
  unfold Sessions.removeSessionCallback
  cases hs : (sv.sessionAt s).bind Session.channel with
  | none => exact h.freeSession hs hlist hpending
  | some c =>
    refine (h.detachSession hs).freeSession ?_ hlist hpending
    unfold Sessions.detachSession
    rw [chan_modifyChannel, chan_modifySession, if_pos rfl]
    cases sv.sessionAt s <;> rfl

theorem detachAll_eq (ss : List Nat) : ∀ (sv : Server),
    let sv' := ss.foldl (fun sv s => sv.modifySession s fun ses => { ses with channel := none }) sv
    (∀ t, chan sv' t = if t ∈ ss then none else chan sv t) ∧ (∀ t, live sv' t = live sv t) ∧
      sv'.channelAt = sv.channelAt ∧ sv'.sessions = sv.sessions ∧ sv'.channels = sv.channels ∧
      sv'.delayedCallbacks = sv.delayedCallbacks ∧ sv'.nextAddr = sv.nextAddr := by
  induction ss with
  | nil => intro sv; simp
  | cons s ss ih =>
    intro sv
    obtain ⟨h1, h2, h3, h4, h5, h6, h7⟩ :=
      ih (sv.modifySession s fun ses => { ses with channel := none })
    refine ⟨?_, fun t => (h2 t).trans (by simp), h3, h4, h5, h6, h7⟩
    intro t
    rw [List.foldl_cons, h1, chan_modifySession]
    by_cases hts : t = s
    · subst hts
      have hgone : ((sv.sessionAt t).map fun ses => { ses with channel := none }).bind
          Session.channel = none := by cases sv.sessionAt t <;> rfl
      simp [hgone]
    · simp [hts]

theorem WellLinked.removeSecureChannelCallback (h : WellLinked sv) {c : Nat}
    (hlist : c ∉ sv.channels) (hpending : .removeSecureChannelCallback c ∉ sv.delayedCallbacks) :
    WellLinked (removeSecureChannelCallback sv c) := by
  unfold Sessions.removeSecureChannelCallback
  obtain ⟨h1, h2, h3, h4, h5, h6, h7⟩ := detachAll_eq (entries sv c) sv
  rw [show ((sv.channelAt c).map Channel.sessions).getD [] = entries sv c from rfl]
  dsimp only at h1 h2 h3 h4 h5 h6 h7 ⊢
  generalize (entries sv c).foldl
    (fun sv s => sv.modifySession s fun ses => { ses with channel := none }) sv = sv₁ at *
  constructor
  case mem_entries_iff =>
    intro t d
    change t ∈ entries { sv₁ with channelAt := Function.update sv₁.channelAt c none } d ↔
      chan sv₁ t = some d
    have hentries : entries { sv₁ with channelAt := Function.update sv₁.channelAt c none } d =
        if d = c then [] else entries sv d := by
      by_cases hd : d = c <;> simp [entries, hd, h3]
    rw [h1, hentries]
    by_cases hd : d = c
    · subst hd
      by_cases ht : t ∈ entries sv d
      · simp [ht]
      · simpa [ht] using fun hchan => ht ((h.mem_entries_iff t d).2 hchan)
    · have hold := h.mem_entries_iff t d
      by_cases ht : t ∈ entries sv c
      · have hchan : chan sv t = some c := (h.mem_entries_iff t c).1 ht
        rw [hchan] at hold
        simpa [ht, hd, Ne.symm hd] using hold
      · simpa [ht, hd] using hold
  case entries_nodup =>
    intro d
    by_cases hd : d = c
    · simp [entries, hd]
    · simpa [entries, hd, h3] using h.entries_nodup d
  case sessions_live => intro t ht; exact (h2 t).trans (h.sessions_live t (h4 ▸ ht))
  case sessions_nodup => exact h4 ▸ h.sessions_nodup
  case pending =>
    intro t ht
    obtain ⟨hl, hnot⟩ := h.pending t (h6 ▸ ht)
    exact ⟨(h2 t).trans hl, h4 ▸ hnot⟩
  case channels_live =>
    intro d hd
    have hne : d ≠ c := by rintro rfl; exact hlist (h5 ▸ hd)
    simpa [channelLive, hne, h3] using h.channels_live d (h5 ▸ hd)
  case channels_nodup => exact h5 ▸ h.channels_nodup
  case pending_channel =>
    intro d hd
    have hne : d ≠ c := by rintro rfl; exact hpending (h6 ▸ hd)
    obtain ⟨hl, hnot⟩ := h.pending_channel d (h6 ▸ hd)
    exact ⟨by simpa [channelLive, hne, h3] using hl, h5 ▸ hnot⟩
  case delayed_nodup => exact h6 ▸ h.delayed_nodup
  case fresh =>
    intro a ha
    obtain ⟨hl, hc⟩ := h.fresh a (h7 ▸ ha)
    refine ⟨(h2 a).trans hl, ?_⟩
    by_cases hac : a = c
    · simp [channelLive, hac]
    · simpa [channelLive, hac, h3] using hc

theorem WellLinked.processDelayedCallbacks (ds : List Delayed) : ∀ {sv : Server}, WellLinked sv →
    sv.delayedCallbacks = ds → WellLinked (processDelayedCallbacks ds sv) := by
  induction ds with
  | nil =>
    intro sv h hds
    exact h.congr (fun _ => rfl) (fun _ => rfl) (fun _ => rfl) (fun _ => rfl) rfl rfl hds.symm rfl
  | cons d ds ih =>
    intro sv h hds
    obtain ⟨htaken, hnot⟩ := h.takeDelayed hds
    have hd : d ∈ sv.delayedCallbacks := hds ▸ List.mem_cons_self
    cases d with
    | removeSessionCallback s =>
      refine ih (htaken.removeSessionCallback (h.pending s hd).2 hnot) ?_
      unfold Sessions.runDelayed Sessions.removeSessionCallback
      dsimp only
      split <;> rfl
    | removeSecureChannelCallback c =>
      refine ih (htaken.removeSecureChannelCallback (h.pending_channel c hd).2 hnot) ?_
      exact (detachAll_eq _ { sv with delayedCallbacks := ds }).2.2.2.2.2.1

theorem WellLinked.createSession_eq (h : WellLinked sv) {sv₁ : Server} {request : Request}
    {env : Environment} {r : Except StatusCode Nat}
    (heq : Sessions.createSession sv request.requestedSessionTimeout env.sessionId env.token
      env.allocSession = (sv₁, r)) : WellLinked sv₁ := by
  have h₁ := h.createSession request.requestedSessionTimeout env.sessionId env.token
    env.allocSession
  rwa [heq] at h₁

theorem WellLinked.serviceCreateSession (h : WellLinked sv) (c : Nat) (request : Request)
    (env : Environment) : WellLinked (serviceCreateSession sv c request env).1 := by
  unfold Sessions.serviceCreateSession
  split
  · exact h
  · split
    · exact h
    · split
      · rename_i heq
        exact h.createSession_eq heq
      · rename_i heq
        have h₁ := h.createSession_eq heq
        split
        · split
          · exact h₁
          · exact h₁.sessionManagerRemoveSession _ _
        · exact h₁

theorem WellLinked.serviceActivateSession (h : WellLinked sv) {c : Nat}
    (hc : channelLive sv c = true) (s : Nat) (env : Environment) :
    WellLinked (serviceActivateSession sv c s env).1 := by
  unfold Sessions.serviceActivateSession
  split
  · exact h
  · split
    · exact h
    · apply WellLinked.updateLifetime
      refine WellLinked.modifySession ?_ s (f := fun ses => { ses with activated := true })
        fun _ => rfl
      cases hs : (sv.sessionAt s).bind Session.channel with
      | none => exact h.attachSession hc s _
      | some old =>
        dsimp only
        split
        · refine (h.detachSession hs).attachSession ?_ s _
          simpa [Sessions.detachSession] using hc
        · exact h.attachSession hc s _

theorem WellLinked.serviceCloseSession (h : WellLinked sv) (s : Nat) (env : Environment) :
    WellLinked (serviceCloseSession sv s env).1 := by
  unfold Sessions.serviceCloseSession
  split
  · exact h
  · exact h.sessionManagerRemoveSession _ _

theorem WellLinked.callService (h : WellLinked sv) (requestType : RequestType) (s : Nat)
    (env : Environment) : WellLinked (callService sv requestType s env) := by
  unfold Sessions.callService
  split
  · exact h.serviceCloseSession s env
  · exact h

theorem WellLinked.serveRequest (h : WellLinked sv) (c : Nat) (request : Request)
    (env : Environment) : WellLinked (serveRequest sv c request env).1 := by
  unfold Sessions.serveRequest
  split
  · split <;> exact h
  · split
    · exact h
    · split
      · exact h.sessionManagerRemoveSession _ _
      · split
        · exact h
        · exact (h.updateLifetime _).callService _ _ env

theorem WellLinked.processMSG (h : WellLinked sv) {c : Nat} (hc : channelLive sv c = true)
    (request : Option Request) (env : Environment) :
    WellLinked (processMSG sv c request env).1 := by
  unfold Sessions.processMSG
  split
  · exact h
  · split
    · exact h.serviceCreateSession c _ env
    · split
      · exact h
      · exact h.serviceActivateSession hc _ env
    · exact h.serveRequest c _ env

theorem WellLinked.step (h : WellLinked sv) (e : Event) : WellLinked (step sv e) := by
  cases e with
  | advance d =>
    exact h.congr (fun _ => rfl) (fun _ => rfl) (fun _ => rfl) (fun _ => rfl) rfl rfl rfl rfl
  | «open» channelId => exact h.openChannel channelId
  | close c alloc => exact h.removeSecureChannel c alloc
  | cleanup alloc => exact h.cleanupTimedOut alloc
  | processDelayed => exact h.processDelayedCallbacks _ rfl
  | message c request env =>
    unfold Sessions.step
    dsimp only
    split
    · rename_i hc
      exact h.processMSG hc request env
    · exact h

theorem wellLinked_run (config : Config) (clock : Int) (events : List Event) :
    WellLinked (events.foldl step (Server.init config clock)) := by
  suffices hrun : ∀ sv, WellLinked sv → WellLinked (events.foldl step sv) from
    hrun _ (wellLinked_init config clock)
  induction events with
  | nil => exact fun _ h => h
  | cons e events ih => exact fun sv h => ih _ (h.step e)

end FactoryThing.Sessions
