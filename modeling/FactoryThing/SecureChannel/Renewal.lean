import FactoryThing.SecureChannel.Tokens
import FactoryThing.Lib.Runs

/-!
# Token renewal with messages in flight

A client renews its token while it goes on sending chunks, and the clean-up job of the server
(`UA_SecureChannelManager_cleanupTimedOut`, `src/server/ua_securechannel_manager.c:56-71`) runs in
between. A chunk with the pending token takes it into use, which is safe: by then the client has
switched. The clean-up job takes it into use whether the client has switched or not, and it removes
a channel whose current token has expired although a new one was issued.
-/

namespace FactoryThing.SecureChannel

/-- The fields of `UA_ChannelSecurityToken` that tell how long a token lives. -/
structure TokenLife where
  createdAt : Int
  revisedLifetime : UInt32
  deriving DecidableEq

/-- `UA_MSEC_TO_DATETIME` is 10000. -/
def TokenLife.timeout (life : TokenLife) : Int :=
  life.createdAt + life.revisedLifetime.toNat * 10000

/-- The lifetime a token gets (`ua_securechannel_manager.c:107-111`, `147-151`). -/
def reviseLifetime (maxSecurityTokenLifetime requestedLifetime : UInt32) : UInt32 :=
  let revisedLifetime :=
    if requestedLifetime > maxSecurityTokenLifetime then maxSecurityTokenLifetime
    else requestedLifetime
  if revisedLifetime = 0 then maxSecurityTokenLifetime else revisedLifetime

/-- Whether the channel is in the list of the manager, in a delayed callback, or gone. -/
inductive Standing where
  | listed
  | removed
  | freed
  deriving DecidableEq

/-- The server with one channel: `current` and `next` belong to the two tokens of `tokens.link`. -/
structure ChannelServer where
  clock : Int
  maxSecurityTokenLifetime : UInt32
  tokens : TokenState
  current : TokenLife
  next : TokenLife
  standing : Standing
  deriving DecidableEq

/-- A token as the client knows it: its id and when it expires. -/
structure Grant where
  tokenId : UInt32
  timeout : Int
  deriving DecidableEq

/-- `UA_SecureChannelManager_renew` and the token in the response. -/
def ChannelServer.renew (sv : ChannelServer) (requestedLifetime : UInt32) :
    ChannelServer × Grant :=
  let revisedLifetime :=
    if sv.tokens.link.nextSecurityToken.tokenId = 0 then
      reviseLifetime sv.maxSecurityTokenLifetime requestedLifetime
    else sv.next.revisedLifetime
  let tokens := renewTokens sv.tokens
  let next : TokenLife := ⟨sv.clock, revisedLifetime⟩
  ({ sv with tokens, next }, ⟨tokens.link.nextSecurityToken.tokenId, next.timeout⟩)

/-- `UA_SecureChannel_revolveTokens`, which copies the whole token. -/
def ChannelServer.revolve (sv : ChannelServer) : ChannelServer :=
  if sv.tokens.link.nextSecurityToken.tokenId = 0 then sv
  else
    { sv with
      tokens := { sv.tokens with link := revolveTokens sv.tokens.link, pending := none }
      current := sv.next
      next := ⟨0, 0⟩ }

/-- `UA_SecureChannelManager_cleanupTimedOut` on a channel with a connection. -/
def ChannelServer.cleanupTimedOut (sv : ChannelServer) : ChannelServer :=
  match sv.standing with
  | .listed =>
      if sv.current.timeout < sv.clock then { sv with standing := .removed }
      else if sv.tokens.link.nextSecurityToken.tokenId > 0 then sv.revolve
      else sv
  | _ => sv

/-- The token check of `UA_SecureChannel_processChunks` (`ua_securechannel.c:414-419`): the channel
after it, and whether the chunk passes. -/
def ChannelServer.checkToken (sv : ChannelServer) (tokenId : UInt32) : ChannelServer × Bool :=
  if sv.standing = .freed then (sv, false)
  else if tokenId ≠ sv.tokens.link.securityToken.tokenId then
    if tokenId ≠ sv.tokens.link.nextSecurityToken.tokenId then (sv, false)
    else (sv.revolve, true)
  else (sv, true)

/-- A message to the server: `covered` tells of a chunk that it was sent while the lifetime of its
token had not expired. -/
inductive ToServer where
  | chunk (token : Grant) (covered : Bool)
  | renewRequest (requestedLifetime : UInt32)
  deriving DecidableEq

/-- The server, the token the client uses, and the messages in flight in both directions. -/
structure RenewalState where
  server : ChannelServer
  client : Grant
  toServer : List ToServer
  toClient : List Grant
  deriving DecidableEq

/-- What can happen while a token is renewed, in any order. -/
inductive RenewalEvent where
  | advance (duration : Nat)
  | issueElsewhere
  | sendChunk
  | sendRenewRequest (requestedLifetime : UInt32)
  | serverReceive
  | clientReceive
  | cleanupTimedOut
  | removeSecureChannelCallback
  deriving DecidableEq

structure Verdict where
  covered : Bool
  passed : Bool
  deriving DecidableEq

/-- One step of the client, of the server or of the time. -/
def renewalStep (s : RenewalState) : RenewalEvent → Except Empty (RenewalState × Option Verdict)
  | .advance duration =>
      .ok ({ s with server.clock := s.server.clock + duration }, none)
  | .issueElsewhere =>
      .ok ({ s with server.tokens := tokenStep s.server.tokens .issueElsewhere }, none)
  | .sendChunk =>
      .ok ({ s with
        toServer := s.toServer ++ [.chunk s.client (s.server.clock ≤ s.client.timeout)] }, none)
  | .sendRenewRequest requestedLifetime =>
      .ok ({ s with toServer := s.toServer ++ [.renewRequest requestedLifetime] }, none)
  | .serverReceive =>
      match s.toServer with
      | [] => .ok (s, none)
      | .chunk token covered :: toServer =>
          let (server, passed) := s.server.checkToken token.tokenId
          .ok ({ s with server, toServer }, some ⟨covered, passed⟩)
      | .renewRequest requestedLifetime :: toServer =>
          if s.server.standing = .freed then .ok ({ s with toServer }, none)
          else
            let (server, token) := s.server.renew requestedLifetime
            .ok ({ s with server, toServer, toClient := s.toClient ++ [token] }, none)
  | .clientReceive =>
      match s.toClient with
      | [] => .ok (s, none)
      | token :: toClient => .ok ({ s with client := token, toClient }, none)
  | .cleanupTimedOut => .ok ({ s with server := s.server.cleanupTimedOut }, none)
  | .removeSecureChannelCallback =>
      .ok ({ s with
        server.standing := if s.server.standing = .removed then .freed else s.server.standing },
        none)

/-- A channel that was opened with the lifetime the client asked for, and the client that received
the response. -/
def openedState (clock : Int) (maxSecurityTokenLifetime lastChannelId lastTokenId
    requestedLifetime : UInt32) : RenewalState :=
  let current : TokenLife := ⟨clock, reviseLifetime maxSecurityTokenLifetime requestedLifetime⟩
  { server :=
      { clock := clock
        maxSecurityTokenLifetime := maxSecurityTokenLifetime
        tokens := openTokens lastChannelId lastTokenId
        current := current
        next := ⟨0, 0⟩
        standing := .listed }
    client := ⟨lastTokenId, current.timeout⟩
    toServer := []
    toClient := [] }

/-- A chunk that was sent with a token that had not expired passes the token check. -/
def Accepted (verdict : Option Verdict) : Prop :=
  ∀ v, verdict = some v → v.covered = true → v.passed = true

/-- The tokens of the chunks on the way to the server. -/
def chunkTokens : List ToServer → List Grant
  | [] => []
  | .chunk token _ :: rest => token :: chunkTokens rest
  | .renewRequest _ :: rest => chunkTokens rest

/-- The client has switched, and no chunk with the current token is in flight any more. -/
def Switched (s : RenewalState) : Prop :=
  ∀ g ∈ chunkTokens s.toServer ++ [s.client],
    g.tokenId ≠ s.server.tokens.link.securityToken.tokenId

/-- No chunk in flight was sent with a token that had not expired. -/
def NoneCovered (s : RenewalState) : Prop :=
  ∀ token covered, ToServer.chunk token covered ∈ s.toServer → covered = false

/-- The clean-up job removes a channel only without a pending token and without a covered chunk in
flight, and takes a pending token into use only after the client did. No token with the id 0 is
issued, and none for a channel that was removed. -/
def SafeRenewal (s : RenewalState) : RenewalEvent → Prop
  | .cleanupTimedOut =>
      s.server.standing = .listed →
        if s.server.current.timeout < s.server.clock then
          s.server.tokens.link.nextSecurityToken.tokenId = 0 ∧ NoneCovered s
        else s.server.tokens.link.nextSecurityToken.tokenId ≠ 0 → Switched s
  | .serverReceive =>
      ∀ requestedLifetime, s.toServer.head? = some (.renewRequest requestedLifetime) →
        s.server.standing ≠ .removed ∧
          (s.server.tokens.link.nextSecurityToken.tokenId = 0 → s.server.tokens.lastTokenId ≠ 0)
  | _ => True

/-! ## The order of the tokens -/

/-- A token the client may use as long as the current one is in use. -/
def OfCurrent (sv : ChannelServer) (g : Grant) : Prop :=
  g.tokenId = sv.tokens.link.securityToken.tokenId ∧ g.timeout ≤ sv.current.timeout

/-- A token the client may use when the next one is pending. -/
def OfNext (sv : ChannelServer) (g : Grant) : Prop :=
  sv.tokens.link.nextSecurityToken.tokenId ≠ 0 ∧
    g.tokenId = sv.tokens.link.nextSecurityToken.tokenId ∧ g.timeout ≤ sv.next.timeout

/-- All tokens on their way, in the order in which the server sees them used: those of the chunks
in flight, the one the client uses, those of the responses in flight. -/
def grants (s : RenewalState) : List Grant := chunkTokens s.toServer ++ s.client :: s.toClient

/-- First come uses of the current token, then uses of the next one. -/
def InOrder (sv : ChannelServer) : List Grant → Prop
  | [] => True
  | g :: gs => (OfCurrent sv g ∧ InOrder sv gs) ∨ ∀ g' ∈ g :: gs, OfNext sv g'

variable {gs : List Grant} {sv : ChannelServer} {g : Grant} {s : RenewalState}
  {toServer : List ToServer}

theorem inOrder_of_next (h : ∀ g ∈ gs, OfNext sv g) : InOrder sv gs := by
  cases gs with
  | nil => exact trivial
  | cons g gs => exact Or.inr h

theorem inOrder_of_current (h : ∀ g ∈ gs, OfCurrent sv g) : InOrder sv gs := by
  induction gs with
  | nil => exact trivial
  | cons g gs ih =>
    exact Or.inl ⟨h g List.mem_cons_self, ih fun g' hg' => h g' (List.mem_cons_of_mem _ hg')⟩

theorem InOrder.of_mem (h : InOrder sv gs) : ∀ g ∈ gs, OfCurrent sv g ∨ OfNext sv g := by
  induction gs with
  | nil => exact fun g hg => nomatch hg
  | cons g gs ih =>
    intro g' hg'
    obtain ⟨hcurrent, hrest⟩ | hnext := h
    · obtain rfl | hg' := List.mem_cons.mp hg'
      · exact Or.inl hcurrent
      · exact ih hrest g' hg'
    · exact Or.inr (hnext g' hg')

theorem InOrder.sublist {gs' : List Grant} (h : InOrder sv gs) (hsub : gs'.Sublist gs) :
    InOrder sv gs' := by
  induction hsub with
  | slnil => exact trivial
  | cons g hsub ih =>
    obtain ⟨-, hrest⟩ | hnext := h
    · exact ih hrest
    · exact inOrder_of_next fun g' hg' => hnext g' (List.mem_cons_of_mem _ (hsub.subset hg'))
  | cons_cons g hsub ih =>
    obtain ⟨hcurrent, hrest⟩ | hnext := h
    · exact Or.inl ⟨hcurrent, ih hrest⟩
    · exact inOrder_of_next fun g' hg' => hnext g' ((hsub.cons_cons g).subset hg')

theorem InOrder.repeat_middle {front back : List Grant} (h : InOrder sv (front ++ g :: back)) :
    InOrder sv (front ++ g :: g :: back) := by
  induction front with
  | nil =>
    obtain ⟨hcurrent, hrest⟩ | hnext := h
    · exact Or.inl ⟨hcurrent, Or.inl ⟨hcurrent, hrest⟩⟩
    · refine inOrder_of_next fun g' hg' => ?_
      obtain rfl | hg' := List.mem_cons.mp hg'
      · exact hnext _ List.mem_cons_self
      · exact hnext g' hg'
  | cons f front ih =>
    obtain ⟨hcurrent, hrest⟩ | hnext := h
    · exact Or.inl ⟨hcurrent, ih hrest⟩
    · have hsame : f :: (front ++ g :: g :: back) ⊆ f :: (front ++ g :: back) := by
        intro g' hg'
        grind
      exact inOrder_of_next fun g' hg' => hnext g' (hsame hg')

theorem InOrder.append_next (h : InOrder sv gs) (hg : OfNext sv g) : InOrder sv (gs ++ [g]) := by
  induction gs with
  | nil => exact inOrder_of_next fun g' hg' => List.mem_singleton.mp hg' ▸ hg
  | cons g' gs ih =>
    obtain ⟨hcurrent, hrest⟩ | hnext := h
    · exact Or.inl ⟨hcurrent, ih hrest⟩
    · refine inOrder_of_next fun g'' hg'' => ?_
      obtain hg'' | hg'' := List.mem_append.mp hg''
      · exact hnext g'' hg''
      · exact List.mem_singleton.mp hg'' ▸ hg

theorem InOrder.current (h : InOrder sv gs) (hslot : sv.tokens.link.nextSecurityToken.tokenId = 0) :
    ∀ g ∈ gs, OfCurrent sv g :=
  fun g hg => (h.of_mem g hg).resolve_right fun hnext => hnext.1 hslot

theorem ofCurrent_revolve (h : OfNext sv g) : OfCurrent sv.revolve g := by
  obtain ⟨hne, hid, htimeout⟩ := h
  unfold ChannelServer.revolve
  rw [if_neg hne]
  refine ⟨?_, htimeout⟩
  rw [revolveTokens, if_neg hne]
  exact hid

/-- While the channel is in the list of the manager. -/
structure Listed (s : RenewalState) : Prop where
  inOrder : InOrder s.server (grants s)
  created : s.server.tokens.link.nextSecurityToken.tokenId ≠ 0 →
    s.server.next.createdAt ≤ s.server.clock

/-- After the channel was removed: whatever is still under way has expired. -/
structure Over (s : RenewalState) : Prop where
  noneCovered : NoneCovered s
  expired : ∀ g ∈ grants s, g.timeout < s.server.clock

def RenewalInv (s : RenewalState) : Prop :=
  (s.server.standing = .listed ∧ Listed s) ∨ (s.server.standing ≠ .listed ∧ Over s)

theorem chunkTokens_append (xs ys : List ToServer) :
    chunkTokens (xs ++ ys) = chunkTokens xs ++ chunkTokens ys := by
  induction xs with
  | nil => rfl
  | cons m xs ih =>
    cases m with
    | chunk token covered => exact congrArg (token :: ·) ih
    | renewRequest requestedLifetime => exact ih

theorem renewalInv_opened (clock : Int) (maxSecurityTokenLifetime lastChannelId lastTokenId
    requestedLifetime : UInt32) :
    RenewalInv (openedState clock maxSecurityTokenLifetime lastChannelId lastTokenId
      requestedLifetime) := by
  refine Or.inl ⟨rfl, Or.inl ⟨⟨rfl, Int.le_refl _⟩, trivial⟩, fun h => absurd rfl h⟩

theorem checkToken_inOrder (hstanding : sv.standing = .listed) (h : InOrder sv (g :: gs)) :
    (sv.checkToken g.tokenId).2 = true ∧ InOrder (sv.checkToken g.tokenId).1 gs ∧
      ((sv.checkToken g.tokenId).1 = sv ∨ (sv.checkToken g.tokenId).1 = sv.revolve) := by
  have hnot : sv.standing ≠ .freed := by
    rw [hstanding]
    exact nofun
  unfold ChannelServer.checkToken
  rw [if_neg hnot]
  by_cases hcurrent : g.tokenId = sv.tokens.link.securityToken.tokenId
  · rw [if_neg (not_not_intro hcurrent)]
    exact ⟨rfl, h.sublist (List.sublist_cons_self g gs), Or.inl rfl⟩
  · rw [if_pos hcurrent]
    obtain ⟨hg, -⟩ | hnext := h
    · exact absurd hg.1 hcurrent
    · have hid := (hnext g List.mem_cons_self).2.1
      rw [if_neg (not_not_intro hid)]
      refine ⟨rfl, inOrder_of_current fun g' hg' => ?_, Or.inr rfl⟩
      exact ofCurrent_revolve (hnext g' (List.mem_cons_of_mem g hg'))

theorem standing_revolve (sv : ChannelServer) : sv.revolve.standing = sv.standing := by
  unfold ChannelServer.revolve
  split
  · rfl
  · rfl

theorem slot_revolve (sv : ChannelServer) :
    sv.revolve.tokens.link.nextSecurityToken.tokenId = 0 := by
  unfold ChannelServer.revolve
  split
  · next h => exact h
  · next h =>
    rw [revolveTokens, if_neg h]

theorem InOrder.mono {sv' : ChannelServer} (h : InOrder sv gs)
    (hcurrent : ∀ g, OfCurrent sv g → OfCurrent sv' g) (hnext : ∀ g, OfNext sv g → OfNext sv' g) :
    InOrder sv' gs := by
  induction gs with
  | nil => exact trivial
  | cons g gs ih =>
    obtain ⟨hg, hrest⟩ | hall := h
    · exact Or.inl ⟨hcurrent g hg, ih hrest⟩
    · exact Or.inr fun g' hg' => hnext g' (hall g' hg')

theorem renew_inOrder (requestedLifetime : UInt32) (h : InOrder sv gs)
    (hcreated : sv.tokens.link.nextSecurityToken.tokenId ≠ 0 → sv.next.createdAt ≤ sv.clock)
    (hid : sv.tokens.link.nextSecurityToken.tokenId = 0 → sv.tokens.lastTokenId ≠ 0) :
    InOrder (sv.renew requestedLifetime).1 (gs ++ [(sv.renew requestedLifetime).2]) := by
  by_cases hslot : sv.tokens.link.nextSecurityToken.tokenId = 0
  · have htokens : renewTokens sv.tokens = ⟨sv.tokens.lastTokenId + 1,
        { sv.tokens.link with
          nextSecurityToken := ⟨sv.tokens.link.securityToken.channelId, sv.tokens.lastTokenId⟩ },
        some sv.tokens.lastTokenId⟩ := if_pos hslot
    have hcurrent : ∀ g, OfCurrent sv g → OfCurrent (sv.renew requestedLifetime).1 g := by
      intro g hg
      simpa only [OfCurrent, ChannelServer.renew, htokens] using hg
    have hnext : OfNext (sv.renew requestedLifetime).1 (sv.renew requestedLifetime).2 := by
      simp only [OfNext, ChannelServer.renew, htokens]
      exact ⟨hid hslot, trivial, Int.le_refl _⟩
    exact (h.mono hcurrent fun g hg => absurd hslot hg.1).append_next hnext
  · have htokens : renewTokens sv.tokens = sv.tokens := if_neg hslot
    have hcurrent : ∀ g, OfCurrent sv g → OfCurrent (sv.renew requestedLifetime).1 g := by
      intro g hg
      simpa only [OfCurrent, ChannelServer.renew, htokens] using hg
    have hmono : ∀ g, OfNext sv g → OfNext (sv.renew requestedLifetime).1 g := by
      intro g hg
      obtain ⟨hne, heq, htimeout⟩ := hg
      simp only [OfNext, ChannelServer.renew, htokens, if_neg hslot]
      refine ⟨hne, heq, ?_⟩
      have hle := hcreated hslot
      unfold TokenLife.timeout at htimeout ⊢
      dsimp only
      omega
    have hnext : OfNext (sv.renew requestedLifetime).1 (sv.renew requestedLifetime).2 := by
      simp only [OfNext, ChannelServer.renew, htokens]
      exact ⟨hslot, trivial, Int.le_refl _⟩
    exact (h.mono hcurrent hmono).append_next hnext

theorem next_of_switched (h : InOrder s.server (grants s)) (hs : Switched s) :
    ∀ g ∈ grants s, OfNext s.server g := by
  have hfront : ∀ front back : List Grant, InOrder s.server (front ++ back) →
      (∀ g ∈ front, g.tokenId ≠ s.server.tokens.link.securityToken.tokenId) → front ≠ [] →
      ∀ g ∈ front ++ back, OfNext s.server g := by
    intro front back horder hne hnil
    obtain ⟨g, front', rfl⟩ := List.exists_cons_of_ne_nil hnil
    obtain ⟨hcurrent, -⟩ | hnext := horder
    · exact absurd hcurrent.1 (hne g List.mem_cons_self)
    · exact hnext
  have hsplit : grants s = (chunkTokens s.toServer ++ [s.client]) ++ s.toClient := by
    simp [grants]
  rw [hsplit] at h ⊢
  exact hfront _ _ h hs (by simp)

theorem renewalInv_advance (h : RenewalInv s) (duration : Nat) :
    RenewalInv { s with server.clock := s.server.clock + duration } := by
  obtain ⟨hlisted, hinv⟩ | ⟨hlisted, hinv⟩ := h
  · refine Or.inl ⟨hlisted, hinv.inOrder.mono (fun g h => h) fun g h => h, fun hne => ?_⟩
    have hle := hinv.created hne
    show s.server.next.createdAt ≤ s.server.clock + duration
    omega
  · refine Or.inr ⟨hlisted, hinv.noneCovered, fun g hg => ?_⟩
    have hlt := hinv.expired g hg
    show g.timeout < s.server.clock + duration
    omega

theorem renewalInv_issueElsewhere (h : RenewalInv s) :
    RenewalInv { s with server.tokens := tokenStep s.server.tokens .issueElsewhere } := by
  obtain ⟨hlisted, hinv⟩ | ⟨hlisted, hinv⟩ := h
  · exact Or.inl ⟨hlisted, hinv.inOrder.mono (fun g h => h) fun g h => h, hinv.created⟩
  · exact Or.inr ⟨hlisted, hinv.noneCovered, hinv.expired⟩

theorem renewalInv_sendChunk (h : RenewalInv s) :
    RenewalInv { s with
      toServer := s.toServer ++ [.chunk s.client (s.server.clock ≤ s.client.timeout)] } := by
  have hgrants : grants { s with
      toServer := s.toServer ++ [.chunk s.client (s.server.clock ≤ s.client.timeout)] } =
        chunkTokens s.toServer ++ s.client :: s.client :: s.toClient := by
    simp [grants, chunkTokens_append, chunkTokens]
  obtain ⟨hlisted, hinv⟩ | ⟨hlisted, hinv⟩ := h
  · refine Or.inl ⟨hlisted, ?_, hinv.created⟩
    rw [hgrants]
    exact hinv.inOrder.repeat_middle
  · have hclient : s.client.timeout < s.server.clock := hinv.expired s.client (by simp [grants])
    refine Or.inr ⟨hlisted, ?_, ?_⟩
    · intro token covered hm
      obtain hm | hm := List.mem_append.mp hm
      · exact hinv.noneCovered token covered hm
      · obtain ⟨-, rfl⟩ := ToServer.chunk.inj (List.mem_singleton.mp hm)
        simpa using hclient
    · rw [hgrants]
      intro g hg
      apply hinv.expired
      simp only [grants, List.mem_append, List.mem_cons] at hg ⊢
      grind

theorem renewalInv_sendRenewRequest (h : RenewalInv s) (requestedLifetime : UInt32) :
    RenewalInv { s with toServer := s.toServer ++ [.renewRequest requestedLifetime] } := by
  have hgrants : grants { s with toServer := s.toServer ++ [.renewRequest requestedLifetime] } =
      grants s := by
    simp [grants, chunkTokens_append, chunkTokens]
  obtain ⟨hlisted, hinv⟩ | ⟨hlisted, hinv⟩ := h
  · exact Or.inl ⟨hlisted, hgrants ▸ hinv.inOrder, hinv.created⟩
  · refine Or.inr ⟨hlisted, ?_, hgrants ▸ hinv.expired⟩
    intro token covered hm
    obtain hm | hm := List.mem_append.mp hm
    · exact hinv.noneCovered token covered hm
    · exact nomatch List.mem_singleton.mp hm

theorem renewalInv_clientReceive (h : RenewalInv s) {token : Grant} {toClient : List Grant}
    (hhead : s.toClient = token :: toClient) : RenewalInv { s with client := token, toClient } := by
  have hsub : (grants { s with client := token, toClient }).Sublist (grants s) := by
    rw [grants, grants, hhead]
    exact (List.Sublist.refl _).append (List.sublist_cons_self _ _)
  obtain ⟨hlisted, hinv⟩ | ⟨hlisted, hinv⟩ := h
  · exact Or.inl ⟨hlisted, hinv.inOrder.sublist hsub, hinv.created⟩
  · exact Or.inr ⟨hlisted, hinv.noneCovered, fun g hg => hinv.expired g (hsub.subset hg)⟩

theorem renewalInv_removeSecureChannelCallback (h : RenewalInv s) :
    RenewalInv { s with
      server.standing := if s.server.standing = .removed then .freed else s.server.standing } := by
  obtain ⟨hlisted, hinv⟩ | ⟨hlisted, hinv⟩ := h
  · refine Or.inl ⟨?_, hinv.inOrder.mono (fun g h => h) fun g h => h, hinv.created⟩
    simp [hlisted]
  · refine Or.inr ⟨?_, hinv.noneCovered, hinv.expired⟩
    split
    · exact nofun
    · exact hlisted

theorem renewalInv_cleanupTimedOut (h : RenewalInv s) (hsafe : SafeRenewal s .cleanupTimedOut) :
    RenewalInv { s with server := s.server.cleanupTimedOut } := by
  obtain ⟨hlisted, hinv⟩ | ⟨hlisted, hinv⟩ := h
  · have hguard := hsafe hlisted
    unfold ChannelServer.cleanupTimedOut
    rw [hlisted]
    by_cases hexpired : s.server.current.timeout < s.server.clock
    · rw [if_pos hexpired] at hguard ⊢
      obtain ⟨hslot, hnone⟩ := hguard
      refine Or.inr ⟨nofun, hnone, fun g hg => ?_⟩
      exact Int.lt_of_le_of_lt (hinv.inOrder.current hslot g hg).2 hexpired
    · rw [if_neg hexpired] at hguard ⊢
      by_cases hslot : s.server.tokens.link.nextSecurityToken.tokenId > 0
      · rw [if_pos hslot]
        have hne : s.server.tokens.link.nextSecurityToken.tokenId ≠ 0 := by
          intro hzero
          rw [hzero] at hslot
          exact absurd hslot (by decide)
        refine Or.inl ⟨(standing_revolve s.server).trans hlisted, ?_, ?_⟩
        · exact inOrder_of_current fun g hg =>
            ofCurrent_revolve (next_of_switched hinv.inOrder (hguard hne) g hg)
        · exact fun hne => absurd (slot_revolve s.server) hne
      · rw [if_neg hslot]
        exact Or.inl ⟨hlisted, hinv⟩
  · refine Or.inr ?_
    have hsame : s.server.cleanupTimedOut = s.server := by
      unfold ChannelServer.cleanupTimedOut
      split
      · next heq => exact absurd heq hlisted
      · rfl
    rw [hsame]
    exact ⟨hlisted, hinv⟩

theorem renewalInv_receiveChunk (h : RenewalInv s) {token : Grant} {covered : Bool}
    (hhead : s.toServer = .chunk token covered :: toServer) :
    RenewalInv { s with server := (s.server.checkToken token.tokenId).1, toServer } ∧
      Accepted (some ⟨covered, (s.server.checkToken token.tokenId).2⟩) := by
  have hgrants : grants s = token :: (chunkTokens toServer ++ s.client :: s.toClient) := by
    rw [grants, hhead]
    rfl
  obtain ⟨hlisted, hinv⟩ | ⟨hlisted, hinv⟩ := h
  · obtain ⟨hpassed, horder, hserver⟩ := checkToken_inOrder hlisted (hgrants ▸ hinv.inOrder)
    have hstanding : (s.server.checkToken token.tokenId).1.standing = .listed := by
      obtain hsame | hsame := hserver
      · rw [hsame, hlisted]
      · rw [hsame, standing_revolve, hlisted]
    refine ⟨Or.inl ⟨hstanding, horder, ?_⟩, fun v hv _ => Option.some.inj hv ▸ hpassed⟩
    obtain hsame | hsame := hserver
    · rw [hsame]
      exact hinv.created
    · rw [hsame]
      exact fun hne => absurd (slot_revolve s.server) hne
  · have huncovered : covered = false :=
      hinv.noneCovered token covered (hhead ▸ List.mem_cons_self)
    subst huncovered
    have hserver : (s.server.checkToken token.tokenId).1.standing = s.server.standing ∧
        (s.server.checkToken token.tokenId).1.clock = s.server.clock := by
      unfold ChannelServer.checkToken ChannelServer.revolve
      grind
    refine ⟨Or.inr ⟨hserver.1 ▸ hlisted, ?_, ?_⟩, fun v hv hcovered => ?_⟩
    · intro token' covered' hm
      exact hinv.noneCovered token' covered' (hhead ▸ List.mem_cons_of_mem _ hm)
    · intro g hg
      rw [hserver.2]
      exact hinv.expired g (hgrants ▸ List.mem_cons_of_mem _ hg)
    · rw [← Option.some.inj hv] at hcovered
      exact nomatch hcovered

theorem renewalInv_receiveRenewRequest (h : RenewalInv s) {requestedLifetime : UInt32}
    (hhead : s.toServer = .renewRequest requestedLifetime :: toServer)
    (hfreed : s.server.standing ≠ .freed) (hsafe : SafeRenewal s .serverReceive) :
    RenewalInv { s with
      server := (s.server.renew requestedLifetime).1
      toServer
      toClient := s.toClient ++ [(s.server.renew requestedLifetime).2] } := by
  obtain ⟨hremoved, hid⟩ := hsafe requestedLifetime (by rw [hhead]; rfl)
  obtain ⟨hlisted, hinv⟩ | ⟨hlisted, -⟩ := h
  · refine Or.inl ⟨hlisted, ?_, fun _ => Int.le_refl _⟩
    have hgrants : grants s = chunkTokens toServer ++ s.client :: s.toClient := by
      rw [grants, hhead]
      rfl
    have horder := renew_inOrder requestedLifetime (hgrants ▸ hinv.inOrder) hinv.created hid
    rwa [List.append_assoc] at horder
  · cases hstanding : s.server.standing with
    | listed => exact absurd hstanding hlisted
    | removed => exact absurd hstanding hremoved
    | freed => exact absurd hstanding hfreed

theorem renewalInv_dropRenewRequest (h : RenewalInv s) {requestedLifetime : UInt32}
    (hhead : s.toServer = .renewRequest requestedLifetime :: toServer) :
    RenewalInv { s with toServer } := by
  have hgrants : grants { s with toServer } = grants s := by
    rw [grants, grants, hhead]
    rfl
  obtain ⟨hlisted, hinv⟩ | ⟨hlisted, hinv⟩ := h
  · exact Or.inl ⟨hlisted, hgrants ▸ hinv.inOrder, hinv.created⟩
  · refine Or.inr ⟨hlisted, fun token covered hm => ?_, hgrants ▸ hinv.expired⟩
    exact hinv.noneCovered token covered (hhead ▸ List.mem_cons_of_mem _ hm)

theorem renewalInv_step (s : RenewalState) (e : RenewalEvent) (s' : RenewalState)
    (verdict : Option Verdict) (h : RenewalInv s) (hsafe : SafeRenewal s e)
    (hstep : renewalStep s e = .ok (s', verdict)) : RenewalInv s' ∧ Accepted verdict := by
  have hnone : Accepted none := fun v h => nomatch h
  cases e with
  | advance duration =>
    injection hstep with hstep
    obtain ⟨rfl, rfl⟩ := Prod.mk.inj hstep
    exact ⟨renewalInv_advance h duration, hnone⟩
  | issueElsewhere =>
    injection hstep with hstep
    obtain ⟨rfl, rfl⟩ := Prod.mk.inj hstep
    exact ⟨renewalInv_issueElsewhere h, hnone⟩
  | sendChunk =>
    injection hstep with hstep
    obtain ⟨rfl, rfl⟩ := Prod.mk.inj hstep
    exact ⟨renewalInv_sendChunk h, hnone⟩
  | sendRenewRequest requestedLifetime =>
    injection hstep with hstep
    obtain ⟨rfl, rfl⟩ := Prod.mk.inj hstep
    exact ⟨renewalInv_sendRenewRequest h requestedLifetime, hnone⟩
  | serverReceive =>
    rw [renewalStep] at hstep
    split at hstep
    · injection hstep with hstep
      obtain ⟨rfl, rfl⟩ := Prod.mk.inj hstep
      exact ⟨h, hnone⟩
    · next token covered toServer hhead =>
      injection hstep with hstep
      obtain ⟨rfl, rfl⟩ := Prod.mk.inj hstep
      exact renewalInv_receiveChunk h hhead
    · next requestedLifetime toServer hhead =>
      split at hstep
      · injection hstep with hstep
        obtain ⟨rfl, rfl⟩ := Prod.mk.inj hstep
        exact ⟨renewalInv_dropRenewRequest h hhead, hnone⟩
      · next hfreed =>
        injection hstep with hstep
        obtain ⟨rfl, rfl⟩ := Prod.mk.inj hstep
        exact ⟨renewalInv_receiveRenewRequest h hhead hfreed hsafe, hnone⟩
  | clientReceive =>
    rw [renewalStep] at hstep
    split at hstep
    · injection hstep with hstep
      obtain ⟨rfl, rfl⟩ := Prod.mk.inj hstep
      exact ⟨h, hnone⟩
    · next token toClient hhead =>
      injection hstep with hstep
      obtain ⟨rfl, rfl⟩ := Prod.mk.inj hstep
      exact ⟨renewalInv_clientReceive h hhead, hnone⟩
  | cleanupTimedOut =>
    injection hstep with hstep
    obtain ⟨rfl, rfl⟩ := Prod.mk.inj hstep
    exact ⟨renewalInv_cleanupTimedOut h hsafe, hnone⟩
  | removeSecureChannelCallback =>
    injection hstep with hstep
    obtain ⟨rfl, rfl⟩ := Prod.mk.inj hstep
    exact ⟨renewalInv_removeSecureChannelCallback h, hnone⟩

/-- In every run whose clean-ups and renewals are safe, every chunk that was sent while the lifetime
of its token had not expired passes the token check. -/
theorem renewal_accepted (clock : Int) (maxSecurityTokenLifetime lastChannelId lastTokenId
    requestedLifetime : UInt32) (events : List RenewalEvent) (s : RenewalState)
    (verdicts : List (Option Verdict))
    (hsafe : Runs.Guarded renewalStep SafeRenewal
      (openedState clock maxSecurityTokenLifetime lastChannelId lastTokenId requestedLifetime)
        events)
    (hrun : Runs.run renewalStep
      (openedState clock maxSecurityTokenLifetime lastChannelId lastTokenId requestedLifetime)
        events = .ok (s, verdicts)) :
    ∀ verdict ∈ verdicts, Accepted verdict :=
  Runs.replies_of_guarded renewalInv_step events _ s verdicts
    (renewalInv_opened clock maxSecurityTokenLifetime lastChannelId lastTokenId requestedLifetime)
    hsafe hrun

/-- The client renews its token, goes on with the old one until the response arrives, and only
then does the clean-up job run. -/
theorem renewal_accepted_inTime :
    ∃ s verdicts,
      Runs.run renewalStep (openedState 0 600000 1 1 600000)
          [.sendRenewRequest 600000, .serverReceive, .sendChunk, .serverReceive, .clientReceive,
            .cleanupTimedOut, .sendChunk, .serverReceive] = .ok (s, verdicts) ∧
        ∀ verdict ∈ verdicts, Accepted verdict := by
  refine ⟨_, _, rfl, renewal_accepted 0 600000 1 1 600000
    [.sendRenewRequest 600000, .serverReceive, .sendChunk, .serverReceive, .clientReceive,
      .cleanupTimedOut, .sendChunk, .serverReceive] _ _ ?_ rfl⟩
  refine And.intro trivial (And.intro (fun _ _ => ⟨by decide, by decide⟩) (And.intro trivial
    (And.intro (fun _ h => nomatch h) (And.intro trivial (And.intro (fun _ => ?_) (And.intro trivial
      (And.intro (fun _ h => nomatch h) trivial)))))))
  rw [if_neg (by decide)]
  intro _
  unfold Switched
  decide

/-- The clean-up job runs between the renewal and the arrival of its response: the chunk the client
sends with its old token is refused. -/
theorem cleanup_refusesOldToken :
    ∃ s verdicts,
      Runs.run renewalStep (openedState 0 600000 1 1 600000)
          [.sendRenewRequest 600000, .serverReceive, .cleanupTimedOut, .sendChunk,
            .serverReceive] = .ok (s, verdicts) ∧
        ¬ ∀ verdict ∈ verdicts, Accepted verdict := by
  refine ⟨_, _, rfl, fun h => ?_⟩
  have hrefused := h (some ⟨true, false⟩) (by decide) ⟨true, false⟩ rfl rfl
  exact nomatch hrefused

theorem readSequenceHeader_checkToken (hstanding : sv.standing ≠ .freed) {chunks : List UInt8}
    {offset o1 o2 o3 : Nat} {tokenId sequenceNumber requestId : UInt32}
    (htoken : readUInt32 chunks offset = some (tokenId, o1))
    (hsequence : readUInt32 chunks o1 = some (sequenceNumber, o2))
    (hrequest : readUInt32 chunks o2 = some (requestId, o3)) :
    readSequenceHeader sv.tokens.link chunks offset =
      if (sv.checkToken tokenId).2 then
        match processSequenceNumber (sv.checkToken tokenId).1.tokens.link sequenceNumber with
        | none =>
            ((sv.checkToken tokenId).1.tokens.link, .error StatusCode.badCommunicationError)
        | some link => (link, .ok (requestId, o3))
      else (sv.tokens.link, .error StatusCode.badCommunicationError) := by
  have hrevolve : sv.revolve.tokens.link = revolveTokens sv.tokens.link := by
    unfold ChannelServer.revolve
    split
    · next hslot => exact (if_pos hslot).symm
    · rfl
  generalize hr : readSequenceHeader sv.tokens.link chunks offset = r
  simp only [readSequenceHeader, Option.bind_eq_bind, htoken, hsequence, hrequest,
    Option.bind_some] at hr
  simp only [ChannelServer.checkToken, if_neg hstanding]
  by_cases hcurrent : tokenId = sv.tokens.link.securityToken.tokenId
  · rw [if_neg (fun h => h.1 hcurrent), if_neg (not_not_intro hcurrent)] at hr
    rw [if_neg (not_not_intro hcurrent), if_pos rfl]
    exact hr.symm
  · by_cases hnext : tokenId = sv.tokens.link.nextSecurityToken.tokenId
    · rw [if_neg (fun h => h.2 hnext), if_pos hcurrent] at hr
      rw [if_pos hcurrent, if_neg (not_not_intro hnext), if_pos rfl, hrevolve]
      exact hr.symm
    · rw [if_pos ⟨hcurrent, hnext⟩] at hr
      rw [if_pos hcurrent, if_pos hnext, if_neg nofun]
      exact hr.symm

end FactoryThing.SecureChannel
