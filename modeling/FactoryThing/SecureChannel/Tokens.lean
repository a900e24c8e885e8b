import FactoryThing.SecureChannel.ChunkLoop

/-!
# The security tokens of a channel

What happens to the two token slots of a channel: `UA_SecureChannelManager_open` and `_renew`
(`src/server/ua_securechannel_manager.c:89-168`) issue tokens, the clean-up job and chunks with the
next token take it into use. A next token with the id 0 means that there is none, and a chunk with
the token id 0 matches that.
-/

namespace FactoryThing.SecureChannel

def startTokenId : UInt32 := 1

/-- A channel as far as its tokens are concerned, with `lastTokenId` of the channel manager.
`pending` is not in the code: the token that was issued last and has not been taken into use. -/
structure TokenState where
  lastTokenId : UInt32
  link : Link
  pending : Option UInt32
  deriving DecidableEq

/-- `UA_SecureChannelManager_open`: a channel that was zeroed gets its id and its first token. -/
def openTokens (lastChannelId lastTokenId : UInt32) : TokenState where
  lastTokenId := lastTokenId + 1
  link := ⟨⟨lastChannelId, lastTokenId⟩, ⟨0, 0⟩, 0⟩
  pending := none

/-- `UA_SecureChannelManager_renew`: a token is issued if there is no next token. -/
def renewTokens (s : TokenState) : TokenState :=
  if s.link.nextSecurityToken.tokenId = 0 then
    { lastTokenId := s.lastTokenId + 1
      link := { s.link with nextSecurityToken := ⟨s.link.securityToken.channelId, s.lastTokenId⟩ }
      pending := some s.lastTokenId }
  else s

/-- `pending` after `UA_SecureChannel_revolveTokens`. -/
def revolvedPending (link : Link) (pending : Option UInt32) : Option UInt32 :=
  if link.nextSecurityToken.tokenId = 0 then pending else none

/-- `UA_SecureChannelManager_cleanupTimedOut` on a channel that has not timed out. -/
def cleanupTokens (s : TokenState) : TokenState :=
  if s.link.nextSecurityToken.tokenId > 0 then
    { s with
      link := revolveTokens s.link
      pending := revolvedPending s.link s.pending }
  else s

/-- A chunk at an offset of the received bytes; `pending` is taken into use if the tokens are
exchanged. -/
def receiveChunk (s : TokenState) (chunks : List UInt8) (offset : Nat) : TokenState :=
  let link := (readChunk s.link chunks offset).1
  { s with
    link
    pending := if link.securityToken = s.link.securityToken then s.pending else none }

/-- What changes the tokens of a channel. -/
inductive TokenEvent where
  /-- A token for another channel. -/
  | issueElsewhere
  | renew
  | cleanupTimedOut
  /-- `processOPN` sets the sequence number. -/
  | setSequenceNumber (sequenceNumber : UInt32)
  | receive (chunks : List UInt8) (offset : Nat)
  deriving DecidableEq

/-- One step of the channel that touches its tokens. -/
def tokenStep (s : TokenState) : TokenEvent → TokenState
  | .issueElsewhere => { s with lastTokenId := s.lastTokenId + 1 }
  | .renew => renewTokens s
  | .cleanupTimedOut => cleanupTokens s
  | .setSequenceNumber sequenceNumber =>
      { s with link := { s.link with receiveSequenceNumber := sequenceNumber } }
  | .receive chunks offset => receiveChunk s chunks offset

/-- The states of a channel that was opened after the manager had issued `issued` tokens. -/
inductive Reachable : TokenState → Prop where
  | opened (lastChannelId : UInt32) (issued : Nat) :
      Reachable (openTokens lastChannelId (startTokenId + UInt32.ofNat issued))
  | step {s : TokenState} (h : Reachable s) (e : TokenEvent) : Reachable (tokenStep s e)

/-- The fields of the headers that a chunk other than OPN is checked by. -/
structure ChunkHeader where
  messageTypeAndChunkType : UInt32
  secureChannelId : UInt32
  tokenId : UInt32
  sequenceNumber : UInt32
  deriving DecidableEq

/-- The headers at an offset: the conversation header, the token id and the sequence header. -/
def readChunkHeader (chunks : List UInt8) (offset : Nat) : Option ChunkHeader := do
  let (messageTypeAndChunkType, offset) ← readUInt32 chunks offset
  let (_, offset) ← readUInt32 chunks offset
  let (secureChannelId, offset) ← readUInt32 chunks offset
  let (tokenId, offset) ← readUInt32 chunks offset
  let (sequenceNumber, offset) ← readUInt32 chunks offset
  let (_, _) ← readUInt32 chunks offset
  some ⟨messageTypeAndChunkType, secureChannelId, tokenId, sequenceNumber⟩

/-- A chunk other than OPN, and not an ERR message, which has no token id. -/
structure IsSymmetric (chunks : List UInt8) (offset : Nat) (h : ChunkHeader) : Prop where
  read : readChunkHeader chunks offset = some h
  not_err : ¬ (chunks.length > 3 ∧ (chunks.drop offset).take 3 = [0x45, 0x52, 0x52])
  not_opn : h.messageTypeAndChunkType &&& 0x00ffffff ≠ messageTypeOpn

/-- The checks of the headers: what they leave of the channel, and whether the chunk passes. -/
def checkHeader (link : Link) (h : ChunkHeader) : Link × Bool :=
  if h.secureChannelId ≠ link.securityToken.channelId then (link, false)
  else if h.tokenId ≠ link.securityToken.tokenId ∧ h.tokenId ≠ link.nextSecurityToken.tokenId then
    (link, false)
  else
    let link := if h.tokenId ≠ link.securityToken.tokenId then revolveTokens link else link
    match processSequenceNumber link h.sequenceNumber with
    | none => (link, false)
    | some link => (link, true)

variable {h : ChunkHeader} (link : Link) {s : TokenState}

theorem readChunk_symmetric {chunks : List UInt8} {offset : Nat}
    (hsym : IsSymmetric chunks offset h) (link : Link) :
    ∃ status c next, readChunk link chunks offset = ((checkHeader link h).1,
        if (checkHeader link h).2 && (chunkTypeOf h.messageTypeAndChunkType).isSome then
          .chunk c next else .stop status) ∧
      c.messageType = h.messageTypeAndChunkType &&& 0x00ffffff := by
  obtain ⟨hread, herr, hopn⟩ := hsym
  simp only [readChunkHeader, Option.bind_eq_bind, Option.bind_eq_some_iff,
    Option.some.injEq] at hread
  obtain ⟨⟨mt, o1⟩, h1, ⟨size, o2⟩, h2, ⟨ch, o3⟩, h3, ⟨tok, o4⟩, h4, ⟨seq, o5⟩, h5,
    ⟨req, o6⟩, h6, rfl⟩ := hread
  have hsequence : readSequenceHeader link chunks o3 =
      if tok ≠ link.securityToken.tokenId ∧ tok ≠ link.nextSecurityToken.tokenId then
        (link, .error StatusCode.badCommunicationError)
      else
        let link := if tok ≠ link.securityToken.tokenId then revolveTokens link else link
        match processSequenceNumber link seq with
        | none => (link, .error StatusCode.badCommunicationError)
        | some link => (link, .ok (req, o6)) := by
    generalize hr : readSequenceHeader link chunks o3 = r
    simp only [readSequenceHeader, Option.bind_eq_bind, h4, h5, h6, Option.bind_some] at hr
    exact hr.symm
  have hmt : ∀ c : Chunk, c = ⟨mt &&& 0x00ffffff, .final, 0, none⟩ →
      c.messageType = mt &&& 0x00ffffff := fun c hc => hc ▸ rfl
  unfold readChunk checkHeader
  simp only [if_neg herr, Option.bind_eq_bind, h1, h2, h3, Option.bind_some, hsequence, if_neg hopn]
  by_cases hch : ch ≠ link.securityToken.channelId
  · simp only [if_pos hch]
    exact ⟨_, _, 0, rfl, hmt _ rfl⟩
  · simp only [if_neg hch]
    by_cases htok : tok ≠ link.securityToken.tokenId ∧ tok ≠ link.nextSecurityToken.tokenId
    · simp only [if_pos htok]
      exact ⟨_, _, 0, rfl, hmt _ rfl⟩
    · simp only [if_neg htok]
      cases processSequenceNumber
          (if tok ≠ link.securityToken.tokenId then revolveTokens link else link) seq with
      | none => exact ⟨_, _, 0, rfl, hmt _ rfl⟩
      | some link' =>
        cases htype : chunkTypeOf mt with
        | none => exact ⟨_, _, 0, rfl, hmt _ rfl⟩
        | some t => exact ⟨StatusCode.good, _, _, rfl, rfl⟩

def SameTokens (link link' : Link) : Prop :=
  link'.securityToken = link.securityToken ∧ link'.nextSecurityToken = link.nextSecurityToken

def Revolved (link link' : Link) : Prop :=
  link.nextSecurityToken.tokenId ≠ 0 ∧ link'.securityToken = link.nextSecurityToken ∧
    link'.nextSecurityToken = ⟨0, 0⟩

theorem revolveTokens_cases :
    SameTokens link (revolveTokens link) ∨ Revolved link (revolveTokens link) := by
  unfold revolveTokens
  split
  · exact Or.inl ⟨rfl, rfl⟩
  · next h => exact Or.inr ⟨h, rfl, rfl⟩

theorem sameTokens_of_processSequenceNumber {link link' : Link} {sequenceNumber : UInt32}
    (h : processSequenceNumber link sequenceNumber = some link') : SameTokens link link' := by
  unfold processSequenceNumber at h
  split at h
  · split at h
    · injection h with h
      exact h ▸ ⟨rfl, rfl⟩
    · exact nomatch h
  · injection h with h
    exact h ▸ ⟨rfl, rfl⟩

/-- A chunk leaves the tokens alone, or it carries the next one and takes it into use. -/
def TokensAfter (link link' : Link) : Prop :=
  SameTokens link link' ∨
    (link.nextSecurityToken.tokenId ≠ link.securityToken.tokenId ∧ Revolved link link')

theorem readSequenceHeader_tokens (chunks : List UInt8) (offset : Nat) :
    TokensAfter link (readSequenceHeader link chunks offset).1 := by
  have hsame : TokensAfter link link := Or.inl ⟨rfl, rfl⟩
  unfold readSequenceHeader
  split
  · exact hsame
  · next tokenId sequenceNumber requestId offset' _ =>
    split
    · exact hsame
    · next htoken =>
      have hrevolve : TokensAfter link
          (if tokenId ≠ link.securityToken.tokenId then revolveTokens link else link) := by
        split
        · next hne =>
          have hnext : tokenId = link.nextSecurityToken.tokenId :=
            Decidable.not_not.mp fun h => htoken ⟨hne, h⟩
          exact (revolveTokens_cases link).imp id fun h => ⟨hnext ▸ hne, h⟩
        · exact hsame
      dsimp only
      split
      · exact hrevolve
      · next link' hnumber =>
        obtain ⟨hcurrent, hnext⟩ := sameTokens_of_processSequenceNumber hnumber
        unfold TokensAfter SameTokens Revolved at hrevolve ⊢
        rwa [hcurrent, hnext]

theorem readChunk_tokens (chunks : List UInt8) (offset : Nat) :
    TokensAfter link (readChunk link chunks offset).1 := by
  have hsame : TokensAfter link link := Or.inl ⟨rfl, rfl⟩
  unfold readChunk
  split
  · split
    · exact hsame
    · exact hsame
  · split
    · exact hsame
    · next messageTypeAndChunkType messageSize secureChannelId offset' _ =>
      split
      · exact hsame
      · have hheader := readSequenceHeader_tokens link chunks offset'
        dsimp only
        split
        · next link' status heq =>
          split at heq
          · exact nomatch (Prod.mk.inj heq).2
          · rw [heq] at hheader
            exact hheader
        · next link' requestId offset'' heq =>
          have hlink : TokensAfter link link' := by
            split at heq
            · obtain ⟨rfl, -⟩ := Prod.mk.inj heq
              exact hsame
            · rw [heq] at hheader
              exact hheader
          split
          · exact hlink
          · exact hlink

/-- The next slot holds the pending token, or it holds 0 and so does `pending`, if there is one. -/
def SlotSound (s : TokenState) : Prop :=
  if s.link.nextSecurityToken.tokenId = 0 then s.pending = none ∨ s.pending = some 0
  else s.pending = some s.link.nextSecurityToken.tokenId

theorem slotSound_step (h : SlotSound s) (e : TokenEvent) : SlotSound (tokenStep s e) := by
  cases e with
  | issueElsewhere => exact h
  | setSequenceNumber sequenceNumber => exact h
  | renew =>
    simp only [tokenStep, renewTokens]
    split
    · unfold SlotSound
      split
      · next hzero => exact Or.inr (congrArg some hzero)
      · rfl
    · exact h
  | cleanupTimedOut =>
    simp only [tokenStep, cleanupTokens]
    split
    · by_cases hzero : s.link.nextSecurityToken.tokenId = 0
      · simpa only [SlotSound, revolveTokens, revolvedPending, if_pos hzero] using h
      · simp [SlotSound, revolveTokens, revolvedPending, hzero]
    · exact h
  | receive chunks offset =>
    simp only [tokenStep, receiveChunk]
    obtain ⟨hcurrent, hnext⟩ | ⟨hne, -, hcurrent, hnext⟩ := readChunk_tokens s.link chunks offset
    · simpa only [SlotSound, hcurrent, hnext, if_pos] using h
    · have hmoved : s.link.nextSecurityToken ≠ s.link.securityToken := fun heq => hne (heq ▸ rfl)
      simp [SlotSound, hcurrent, hnext, hmoved]

theorem slotSound_of_reachable (h : Reachable s) : SlotSound s := by
  induction h with
  | opened lastChannelId issued => exact Or.inl rfl
  | step _ e ih => exact slotSound_step ih e

/-- The token is the current one, or it was issued and has not been taken into use. -/
def Usable (s : TokenState) (tokenId : UInt32) : Prop :=
  tokenId = s.link.securityToken.tokenId ∨ s.pending = some tokenId

/-- A chunk is passed on only with a usable token; with any other one it is refused and leaves the
tokens alone. -/
structure OnlyIssued (s : TokenState) (chunks : List UInt8) (offset : Nat) : Prop where
  passes : ∀ h c next, IsSymmetric chunks offset h →
    (readChunk s.link chunks offset).2 = .chunk c next → Usable s h.tokenId
  refuses : ∀ h, IsSymmetric chunks offset h → ¬ Usable s h.tokenId →
    (∃ status, (readChunk s.link chunks offset).2 = .stop status) ∧
      SameTokens s.link (readChunk s.link chunks offset).1

/-- The chunk does not take an empty next slot for its token: it carries another id than 0, a
token is pending, 0 was itself issued, or something else is wrong with it. -/
def TellsEmptySlot (s : TokenState) (h : ChunkHeader) : Prop :=
  h.tokenId ≠ 0 ∨ s.link.nextSecurityToken.tokenId ≠ 0 ∨ Usable s 0 ∨
    h.secureChannelId ≠ s.link.securityToken.channelId ∨
    processSequenceNumber s.link h.sequenceNumber = none ∨
    chunkTypeOf h.messageTypeAndChunkType = none

theorem slot_ne_of_not_usable (hs : SlotSound s) {tokenId : UInt32} (hunusable : ¬ Usable s tokenId)
    (h : tokenId ≠ 0 ∨ s.link.nextSecurityToken.tokenId ≠ 0) :
    tokenId ≠ s.link.securityToken.tokenId ∧ tokenId ≠ s.link.nextSecurityToken.tokenId := by
  refine ⟨fun heq => hunusable (Or.inl heq), fun heq => ?_⟩
  have hne : s.link.nextSecurityToken.tokenId ≠ 0 := h.elim (fun h => heq ▸ h) id
  rw [SlotSound, if_neg hne] at hs
  exact hunusable (Or.inr (heq ▸ hs))

theorem checkHeader_emptySlot {link : Link} (hzero : h.tokenId = 0)
    (hslot : link.nextSecurityToken.tokenId = 0)
    (hchannel : h.secureChannelId = link.securityToken.channelId) :
    checkHeader link h = match processSequenceNumber link h.sequenceNumber with
      | none => (link, false)
      | some link => (link, true) := by
  have hrevolve : revolveTokens link = link := if_pos hslot
  rw [checkHeader, if_neg (fun hne => hne hchannel), hslot, if_neg (fun hne => hne.2 hzero),
    hrevolve, ite_self]

theorem checkHeader_unusable (hs : SlotSound s) (hunusable : ¬ Usable s h.tokenId)
    (htells : TellsEmptySlot s h) :
    ((checkHeader s.link h).2 = false ∨ chunkTypeOf h.messageTypeAndChunkType = none) ∧
      SameTokens s.link (checkHeader s.link h).1 := by
  have hsame : SameTokens s.link s.link := ⟨rfl, rfl⟩
  by_cases hchannel : h.secureChannelId = s.link.securityToken.channelId
  · by_cases hid : h.tokenId ≠ 0 ∨ s.link.nextSecurityToken.tokenId ≠ 0
    · have hrefused : checkHeader s.link h = (s.link, false) := by
        rw [checkHeader, if_neg (fun hne => hne hchannel),
          if_pos (slot_ne_of_not_usable hs hunusable hid)]
      rw [hrefused]
      exact ⟨Or.inl rfl, hsame⟩
    · simp only [ne_eq, not_or, not_not] at hid
      obtain ⟨hzero, hslot⟩ := hid
      rw [checkHeader_emptySlot hzero hslot hchannel]
      cases hnumber : processSequenceNumber s.link h.sequenceNumber with
      | none => exact ⟨Or.inl rfl, hsame⟩
      | some link =>
        refine ⟨Or.inr ?_, sameTokens_of_processSequenceNumber hnumber⟩
        obtain hne | hne | husable | hne | hrefused | htype := htells
        · exact absurd hzero hne
        · exact absurd hslot hne
        · exact absurd (hzero ▸ husable) hunusable
        · exact absurd hchannel hne
        · rw [hrefused] at hnumber
          exact nomatch hnumber
        · exact htype
  · have hrefused : checkHeader s.link h = (s.link, false) := if_pos hchannel
    rw [hrefused]
    exact ⟨Or.inl rfl, hsame⟩

/-- Only issued tokens are accepted exactly if the chunk does not take an empty slot for its
token. -/
theorem onlyIssued_iff (s : TokenState) (hs : Reachable s) (chunks : List UInt8) (offset : Nat) :
    OnlyIssued s chunks offset ↔
      ∀ h, IsSymmetric chunks offset h → TellsEmptySlot s h := by
  have hsound := slotSound_of_reachable hs
  constructor
  · intro hissued h hsym
    unfold TellsEmptySlot
    by_contra hall
    simp only [not_or, not_not, ne_eq] at hall
    obtain ⟨hzero, hslot, hunusable, hchannel, hnumber, htype⟩ := hall
    rw [← hzero] at hunusable
    obtain ⟨status, c, next, hread, -⟩ := readChunk_symmetric hsym s.link
    obtain ⟨⟨status', hstop⟩, -⟩ := hissued.refuses h hsym hunusable
    have hpasses : (checkHeader s.link h).2 = true := by
      obtain ⟨link', hlink'⟩ := Option.ne_none_iff_exists'.mp hnumber
      rw [checkHeader_emptySlot hzero hslot hchannel, hlink']
    rw [hread, hpasses, Option.isSome_iff_ne_none.mpr htype] at hstop
    exact nomatch hstop
  · intro htells
    have hrefuses : ∀ h, IsSymmetric chunks offset h → ¬ Usable s h.tokenId →
        (∃ status, (readChunk s.link chunks offset).2 = .stop status) ∧
          SameTokens s.link (readChunk s.link chunks offset).1 := by
      intro h hsym hunusable
      obtain ⟨status, c, next, hread, -⟩ := readChunk_symmetric hsym s.link
      obtain ⟨hrefused, htokens⟩ := checkHeader_unusable hsound hunusable (htells h hsym)
      rw [hread]
      refine ⟨⟨status, ?_⟩, htokens⟩
      obtain hrefused | htype := hrefused
      · simp [hrefused]
      · simp [htype]
    refine ⟨?_, hrefuses⟩
    intro h c next hsym hpassed
    by_contra hunusable
    obtain ⟨⟨status, hstop⟩, -⟩ := hrefuses h hsym hunusable
    rw [hpassed] at hstop
    exact nomatch hstop

/-- A channel that was just opened, and a chunk with the token that was issued. -/
theorem onlyIssued_iff_opened :
    OnlyIssued (openTokens 1 1) [0x4D, 0x53, 0x47, 0x46, 24, 0, 0, 0, 1, 0, 0, 0, 1, 0, 0, 0,
        1, 0, 0, 0, 7, 0, 0, 0] 0 ↔
      ∀ h, IsSymmetric [0x4D, 0x53, 0x47, 0x46, 24, 0, 0, 0, 1, 0, 0, 0, 1, 0, 0, 0,
        1, 0, 0, 0, 7, 0, 0, 0] 0 h → TellsEmptySlot (openTokens 1 1) h :=
  onlyIssued_iff (openTokens 1 1) (.opened 1 0) [0x4D, 0x53, 0x47, 0x46, 24, 0, 0, 0, 1, 0, 0, 0,
    1, 0, 0, 0, 1, 0, 0, 0, 7, 0, 0, 0] 0

/-- A chunk with the token id 0 is passed on right after the channel was opened. -/
theorem tokenZero_passes :
    Reachable (openTokens 1 1) ∧
      ¬ OnlyIssued (openTokens 1 1) [0x4D, 0x53, 0x47, 0x46, 24, 0, 0, 0, 1, 0, 0, 0, 0, 0, 0, 0,
        1, 0, 0, 0, 7, 0, 0, 0] 0 := by
  refine ⟨.opened 1 0, ?_⟩
  intro hissued
  have husable := hissued.passes ⟨0x4647534D, 1, 0, 1⟩ ⟨messageTypeMsg, .final, 7, some []⟩ 24
    ⟨by decide, by decide, by decide⟩ (by decide)
  exact husable.elim (by decide) (by decide)

end FactoryThing.SecureChannel
