import FactoryThing.Transport.BinaryMessages

/-!
# Messages in one buffer

What `UA_Server_processBinaryMessage` makes of several messages in one buffer, compared with the
same messages in a buffer each. On a connection with a channel the loop over chunks goes on from
message to message until a chunk is refused, and drops what lies behind it. Without a channel only
the first message is looked at, also when it is the OPN message that opens the channel. What is not
dropped has the same effect either way (`coalesced_iff`).
-/

namespace FactoryThing.Transport

open FactoryThing.SecureChannel
open FactoryThing.Connections (requestTypeIssue)

variable {S T : Type} {sv : Services S} {app : Application T} {recvBufferSize : UInt32}

/-- The message type in the first field of a chunk. -/
def messageTypeIn (chunk : List UInt8) : MessageType :=
  match readUInt32 chunk 0 with
  | none => 0
  | some (messageTypeAndChunkType, _) => messageTypeAndChunkType &&& 0x00ffffff

/-- A chunk of a HEL, OPN, MSG or CLO message that has all of its headers, and whose HEL or OPN
message ends with it. -/
structure IsClientChunk (sv : Services S) (recvBufferSize : UInt32) (chunk : List UInt8) :
    Prop where
  framed : IsChunk recvBufferSize chunk
  kind : (messageTypeIn chunk = messageTypeHel ∧ (decodeHello chunk 8).isSome) ∨
    (messageTypeIn chunk = messageTypeOpn ∧
      ∀ behind, sv.decodeOPN (chunk.drop 12 ++ behind) = sv.decodeOPN (chunk.drop 12)) ∨
    ((messageTypeIn chunk = messageTypeMsg ∨ messageTypeIn chunk = messageTypeClo) ∧
      24 ≤ chunk.length)

structure IsMessage (sv : Services S) (recvBufferSize : UInt32) (chunks : List (List UInt8)) :
    Prop where
  nonempty : chunks ≠ []
  chunk : ∀ c ∈ chunks, IsClientChunk sv recvBufferSize c

variable {k : Nat} {src chunk : List UInt8} {s' : T} {cs : List (List UInt8)} {fuel channel : Nat}
  {s : Served S}

theorem length_of_readUInt32 {r : UInt32 × Nat} (h : readUInt32 src k = some r) :
    k + 4 ≤ src.length := by
  unfold readUInt32 at h
  split at h
  · next b0 b1 b2 b3 rest hdrop =>
    have hlength := congrArg List.length hdrop
    simp only [List.length_drop, List.length_cons] at hlength
    omega
  · exact nomatch h

theorem exists_readUInt32 (src : List UInt8) (k : Nat) (h : k + 4 ≤ src.length) :
    ∃ v, readUInt32 src k = some (v, k + 4) := by
  have hdrop : 4 ≤ (src.drop k).length := by
    rw [List.length_drop]
    omega
  unfold readUInt32
  match src.drop k, hdrop with
  | b0 :: b1 :: b2 :: b3 :: rest, _ => exact ⟨_, rfl⟩

theorem readUInt32_behind {r : UInt32 × Nat} (h : readUInt32 src k = some r) (behind : List UInt8) :
    readUInt32 (src ++ behind) k = some r := by
  rw [← readUInt32_of_front (List.prefix_append src behind) (length_of_readUInt32 h), h]

theorem readString_behind {src : List UInt8} {k : Nat} {r : UaString × Nat}
    (h : readString src k = some r) (behind : List UInt8) :
    readString (src ++ behind) k = some r := by
  unfold readString at h ⊢
  simp only [Option.bind_eq_bind, Option.bind_eq_some_iff] at h
  obtain ⟨⟨length, offset⟩, hlength, hrest⟩ := h
  rw [readUInt32_behind hlength behind]
  simp only [Option.bind_eq_bind, Option.bind_some]
  dsimp only at hrest
  split at hrest
  · next hnull => rw [if_pos hnull, hrest]
  · next hnull =>
    rw [if_neg hnull]
    split at hrest
    · next hzero => rw [if_pos hzero, hrest]
    · next hzero =>
      rw [if_neg hzero]
      split at hrest
      · next hfits =>
        rw [if_pos (by rw [List.length_append]; omega), ← hrest,
          List.drop_append_of_le_length (by omega), List.take_append_of_le_length (by
            rw [List.length_drop]
            omega)]
      · cases hrest

theorem messageTypeIn_err (h : IsErr chunk) (hlong : 4 ≤ chunk.length) :
    messageTypeIn chunk = messageTypeErr := by
  unfold IsErr at h
  match chunk, hlong, h with
  | b0 :: b1 :: b2 :: b3 :: rest, _, h =>
    obtain ⟨rfl, rfl, rfl⟩ := h
    have hlow : ((0x45 : UInt8).toUInt32 ||| (0x52 : UInt8).toUInt32 <<< 8 |||
        (0x52 : UInt8).toUInt32 <<< 16).toNat % 2 ^ 24 = 0x525245 := by decide
    have hhigh : (b3.toUInt32 <<< 24).toNat % 2 ^ 24 = 0 := by
      simp [Nat.shiftLeft_eq]
    apply UInt32.toNat_inj.mp
    show (((0x45 : UInt8).toUInt32 ||| (0x52 : UInt8).toUInt32 <<< 8 |||
      (0x52 : UInt8).toUInt32 <<< 16 ||| b3.toUInt32 <<< 24) &&& 0x00ffffff).toNat = 0x525245
    rw [UInt32.toNat_and, UInt32.toNat_or, show (0x00ffffff : UInt32).toNat = 2 ^ 24 - 1 from rfl,
      Nat.and_two_pow_sub_one_eq_mod, Nat.or_mod_two_pow, hlow, hhigh]
    rfl

theorem IsClientChunk.not_isErr (h : IsClientChunk sv recvBufferSize chunk) : ¬ IsErr chunk := by
  intro herr
  have hge := h.framed.size_ge
  have htype := messageTypeIn_err herr (by omega)
  rcases h.kind with ⟨hkind, -⟩ | ⟨hkind, -⟩ | ⟨hkind | hkind, -⟩
  all_goals
    rw [htype] at hkind
    exact absurd hkind (by decide)

theorem IsClientChunk.headers (h : IsClientChunk sv recvBufferSize chunk) :
    messageTypeIn chunk = messageTypeOpn ∨ 24 ≤ chunk.length := by
  rcases h.kind with ⟨-, hhello⟩ | ⟨hkind, -⟩ | ⟨-, hlength⟩
  · obtain ⟨hello, hhello⟩ := Option.isSome_iff_exists.mp hhello
    unfold decodeHello at hhello
    simp only [Option.bind_eq_bind, Option.bind_eq_some_iff] at hhello
    obtain ⟨r8, h8, r12, h12, r16, h16, r20, h20, -⟩ := hhello
    have hlength := length_of_readUInt32 h20
    rw [offset_of_readUInt32 h16, offset_of_readUInt32 h12, offset_of_readUInt32 h8] at hlength
    exact Or.inr (by omega)
  · exact Or.inl hkind
  · exact Or.inr hlength

theorem readSequenceHeader_behind (link : Link) (h : k + 12 ≤ src.length) (behind : List UInt8) :
    readSequenceHeader link (src ++ behind) k = readSequenceHeader link src k := by
  obtain ⟨tokenId, htoken⟩ := exists_readUInt32 src k (by omega)
  obtain ⟨sequenceNumber, hnumber⟩ := exists_readUInt32 src (k + 4) (by omega)
  obtain ⟨requestId, hrequest⟩ := exists_readUInt32 src (k + 4 + 4) (by omega)
  unfold readSequenceHeader
  simp only [Option.bind_eq_bind, Option.bind_some, htoken, hnumber, hrequest,
    readUInt32_behind htoken, readUInt32_behind hnumber, readUInt32_behind hrequest]

theorem payload_behind (chunk behind : List UInt8) (offset : Nat) :
    (if offset ≤ chunk.length ∧ chunk.length ≤ (chunk ++ behind).length then
      some (((chunk ++ behind).drop offset).take (chunk.length - offset))
    else none) =
      if offset ≤ chunk.length ∧ chunk.length ≤ chunk.length then
        some ((chunk.drop offset).take (chunk.length - offset))
      else none := by
  by_cases hle : offset ≤ chunk.length
  · rw [if_pos ⟨hle, by rw [List.length_append]; omega⟩, if_pos ⟨hle, Nat.le_refl _⟩,
      List.drop_append_of_le_length hle, List.take_append_of_le_length (by rw [List.length_drop])]
  · rw [if_neg fun h => hle h.1, if_neg fun h => hle h.1]

theorem readChunk_behind (link : Link) (h : IsClientChunk sv recvBufferSize chunk)
    (behind : List UInt8) : readChunk link (chunk ++ behind) 0 = readChunk link chunk 0 := by
  have hge := h.framed.size_ge
  have hnotErr := h.not_isErr
  have hheaders := h.headers
  obtain ⟨size, next, hsize, hlength⟩ := h.framed.size_eq
  obtain rfl := offset_of_readUInt32 hsize
  obtain ⟨word, hword⟩ := exists_readUInt32 chunk 0 (by omega)
  obtain ⟨channelId, hchannel⟩ := exists_readUInt32 chunk (4 + 4) (by omega)
  rw [messageTypeIn, hword] at hheaders
  have herr : ¬ ((chunk ++ behind).length > 3 ∧
      ((chunk ++ behind).drop 0).take 3 = [0x45, 0x52, 0x52]) :=
    fun herr => hnotErr ((isErr_append behind hge).mp herr.2)
  have herr' : ¬ (chunk.length > 3 ∧ (chunk.drop 0).take 3 = [0x45, 0x52, 0x52]) :=
    fun herr => hnotErr herr.2
  unfold readChunk
  rw [if_neg herr, if_neg herr']
  simp only [Option.bind_eq_bind, Option.bind_some, hword, hsize, hchannel, Nat.zero_add,
    readUInt32_behind hword, readUInt32_behind hsize, readUInt32_behind hchannel]
  by_cases hid : channelId ≠ link.securityToken.channelId
  · rw [if_pos hid, if_pos hid]
  · by_cases hopn : word &&& 0x00ffffff = messageTypeOpn
    · simp only [if_pos hopn, hlength, payload_behind]
    · have hlong : 4 + 4 + 4 + 12 ≤ chunk.length := hheaders.resolve_left hopn
      simp only [if_neg hopn, readSequenceHeader_behind link hlong, hlength, payload_behind]

theorem iteration_at (s : T) {chunk : List UInt8} (h : IsClientChunk sv recvBufferSize chunk)
    (front behind : List UInt8) :
    iteration app (front ++ (chunk ++ behind)) s front.length =
      ((iteration app chunk s 0).1, (iteration app chunk s 0).2.map id (front.length + ·)) := by
  have hge := h.framed.size_ge
  have hlong : 3 < (chunk ++ behind).length := by
    rw [List.length_append]
    omega
  have hshift := readChunk_shift (app.channel s).link front 0 hlong
  rw [Nat.add_zero, readChunk_behind _ h behind] at hshift
  unfold iteration
  rw [hshift]
  rcases hread : readChunk (app.channel s).link chunk 0 with ⟨link, item⟩
  cases item with
  | stop status => rfl
  | error code reason next => rfl
  | chunk c next =>
    simp only [Item.shift]
    rcases processChunk (app.channel s).chunks c with _ | ⟨entries, _ | callback⟩
    · rfl
    · rfl
    · rfl

theorem next_of_iteration {s : T} {next : Nat} (h : IsClientChunk sv recvBufferSize chunk)
    (hstep : iteration app chunk s 0 = (s', .inr next)) : next = chunk.length := by
  have hwhole : iteration app ([] ++ (chunk ++ [])) s ([] : List UInt8).length =
    (s', .inr next) := by
    rw [List.nil_append, List.append_nil]
    exact hstep
  have hnext := (iteration_next h.framed hwhole).mpr fun herr => absurd herr h.not_isErr
  rw [hnext, List.length_nil, Nat.zero_add]

/-- A chunk on its own: one that the loop ends with leaves the state and how it ended. -/
def chunkStep (app : Application T) (s : T) (chunk : List UInt8) :
    Except (T × LoopEnd) (T × Unit) :=
  match iteration app chunk s 0 with
  | (s, .inl ended) => .error (s, ended)
  | (s, .inr _) => .ok (s, ())

/-- What chunks leave, one after the other until the loop ends with one. -/
def chunksResult : Except (T × LoopEnd) (T × List Unit) → T × LoopEnd
  | .error (s, ended) => (s, ended)
  | .ok (s, _) => (s, .status StatusCode.good)

theorem chunkStep_ok {s : T} {u : Unit} (h : chunkStep app s chunk = .ok (s', u)) :
    ∃ next, iteration app chunk s 0 = (s', .inr next) := by
  unfold chunkStep at h
  split at h
  · exact nomatch h
  · next hstep =>
    injection h with h
    rw [(Prod.mk.inj h).1] at hstep
    exact ⟨_, hstep⟩

theorem chunkStep_error {s : T} {ended : LoopEnd}
    (h : chunkStep app s chunk = .error (s', ended)) :
    iteration app chunk s 0 = (s', .inl ended) := by
  unfold chunkStep at h
  split at h
  · next hstep =>
    injection h with h
    rw [(Prod.mk.inj h).1, (Prod.mk.inj h).2] at hstep
    exact hstep
  · exact nomatch h

theorem runChunks_chunks (app : Application T) (hcs : ∀ c ∈ cs, IsClientChunk sv recvBufferSize c)
    (hne : cs ≠ []) (front : List UInt8) (s : T) (hfuel : cs.length ≤ fuel) :
    runChunks app (front ++ cs.flatten) fuel s front.length =
      ((chunksResult (Runs.run (chunkStep app) s cs)).1,
        some (chunksResult (Runs.run (chunkStep app) s cs)).2) := by
  induction cs generalizing front s fuel with
  | nil => exact absurd rfl hne
  | cons chunk cs ih =>
    have hchunk := hcs chunk List.mem_cons_self
    have hrest : ∀ c ∈ cs, IsClientChunk sv recvBufferSize c :=
      fun c hc => hcs c (List.mem_cons_of_mem _ hc)
    obtain ⟨fuel, rfl⟩ := Nat.exists_eq_add_of_le' (Nat.le_trans (Nat.succ_pos _) hfuel)
    rw [List.flatten_cons, runChunks, iteration_at s hchunk front cs.flatten, Runs.run]
    cases hstep : chunkStep app s chunk with
    | error r =>
      rw [chunkStep_error hstep]
      rfl
    | ok p =>
      obtain ⟨s', u⟩ := p
      obtain ⟨next, hiteration⟩ := chunkStep_ok hstep
      obtain rfl := next_of_iteration hchunk hiteration
      rw [hiteration]
      dsimp only [Sum.map_inr]
      by_cases hnil : cs = []
      · subst hnil
        rw [if_neg (by simp)]
        rfl
      · have hmore := length_lt_of_ne_nil front chunk (fun c hc => (hrest c hc).framed) hnil
        rw [if_pos hmore]
        have hih := ih hrest hnil (front ++ chunk) s' (Nat.le_of_succ_le_succ hfuel)
        rw [List.length_append, List.append_assoc] at hih
        rw [hih]
        cases Runs.run (chunkStep app) s' cs with
        | error r => rfl
        | ok q => rfl

/-- The result for a buffer whose chunks end in some way. -/
def bufferResult : T × LoopEnd → Except Fault T
  | (s, .status _) => .ok s
  | (_, .doubleFree) => .error Fault.doubleFree

theorem processBinaryMessage_chunks (hchannel : s.connection.channel = some channel)
    (hcs : ∀ c ∈ cs, IsClientChunk sv recvBufferSize c) (hne : cs ≠ []) (hfuel : cs.length ≤ fuel) :
    processBinaryMessage sv fuel s cs.flatten =
      bufferResult (chunksResult (Runs.run (chunkStep (application sv channel)) s cs)) := by
  have hloop := runChunks_chunks (application sv channel) hcs hne [] s hfuel
  rw [List.nil_append, List.length_nil] at hloop
  rw [processBinaryMessage, hchannel]
  dsimp only
  rw [hloop]
  rcases chunksResult (Runs.run (chunkStep (application sv channel)) s cs) with ⟨s', status | _⟩
  · rfl
  · rfl

/-! ## Messages one after the other -/

/-- An OPN message that asks for a new channel. -/
def OpensChannel (sv : Services S) : Callback → Prop
  | .error _ _ => False
  | .message messagetype _ message =>
      messagetype = messageTypeOpn ∧
        ∃ opn, sv.decodeOPN message = some opn ∧ opn.request.requestType = requestTypeIssue

def callbackOf (app : Application T) (s : T) (chunk : List UInt8) : Option Callback :=
  match (readChunk (app.channel s).link chunk 0).2 with
  | .stop _ => none
  | .error code reason _ => some (.error code reason)
  | .chunk c _ => (processChunk (app.channel s).chunks c).bind Prod.snd

/-- The OPN messages that arrive on the channel renew it. -/
def RenewsOnly (sv : Services S) (channel : Nat) (s : Served S) (cs : List (List UInt8)) : Prop :=
  Runs.Guarded (chunkStep (application sv channel))
    (fun s chunk =>
      ∀ callback ∈ callbackOf (application sv channel) s chunk, ¬ OpensChannel sv callback) s cs

theorem channel_afterSend (s : Served S) (answer : S × Bool) :
    (s.afterSend answer).connection.channel = s.connection.channel := by
  rcases answer with ⟨server, sent⟩
  cases sent with
  | false | true => rfl

theorem channel_processSecureChannelMessage (channel : Nat) (s : Served S) {callback : Callback}
    (h : ¬ OpensChannel sv callback) :
    (processSecureChannelMessage sv channel s callback).connection.channel =
      s.connection.channel := by
  cases callback with
  | error code reason => rfl
  | message messagetype requestId message =>
    unfold processSecureChannelMessage
    dsimp only
    split
    · next hopn =>
      unfold processOPN
      cases hdecode : sv.decodeOPN message with
      | none => rfl
      | some opn =>
        have hrenew : opn.request.requestType ≠ requestTypeIssue :=
          fun hissue => h ⟨hopn, opn, hdecode, hissue⟩
        dsimp only
        split
        · unfold serviceOpenSecureChannel
          rw [if_neg hrenew]
          dsimp only
          split
          · next hnone => exact hnone.symm ▸ rfl
          · exact channel_afterSend _ _
        · rfl
    · split
      · exact channel_afterSend _ _
      · split
        · rfl
        · rfl

theorem channel_iteration {s' : Served S} {r : LoopEnd ⊕ Nat}
    (hrenews : ∀ callback ∈ callbackOf (application sv channel) s chunk, ¬ OpensChannel sv callback)
    (h : iteration (application sv channel) chunk s 0 = (s', r)) :
    s'.connection.channel = s.connection.channel := by
  unfold iteration at h
  unfold callbackOf at hrenews
  rcases hread : readChunk ((application sv channel).channel s).link chunk 0 with ⟨link, item⟩
  rw [hread] at h hrenews
  cases item with
  | stop status =>
    obtain ⟨rfl, -⟩ := Prod.mk.inj h
    rfl
  | error code reason next =>
    obtain ⟨rfl, -⟩ := Prod.mk.inj h
    exact channel_processSecureChannelMessage channel _ (hrenews _ rfl)
  | chunk c next =>
    dsimp only at h hrenews
    rcases hprocess : processChunk ((application sv channel).channel s).chunks c with
      _ | ⟨entries, _ | callback⟩
    · rw [hprocess] at h
      obtain ⟨rfl, -⟩ := Prod.mk.inj h
      rfl
    · rw [hprocess] at h
      obtain ⟨rfl, -⟩ := Prod.mk.inj h
      rfl
    · rw [hprocess] at h hrenews
      obtain ⟨rfl, -⟩ := Prod.mk.inj h
      exact channel_processSecureChannelMessage channel _ (hrenews _ rfl)

theorem channel_run {s' : Served S} {us : List Unit}
    (hchannel : s.connection.channel = some channel) (hrenews : RenewsOnly sv channel s cs)
    (h : Runs.run (chunkStep (application sv channel)) s cs = .ok (s', us)) :
    s'.connection.channel = some channel := by
  let OnChannel : Served S → Prop := fun s => s.connection.channel = some channel
  have hstep : ∀ (s : Served S) (chunk : List UInt8) (s' : Served S) (u : Unit), OnChannel s →
      (∀ callback ∈ callbackOf (application sv channel) s chunk, ¬ OpensChannel sv callback) →
      chunkStep (application sv channel) s chunk = .ok (s', u) → OnChannel s' := by
    intro s chunk s' u hs hguard hstep
    obtain ⟨next, hiteration⟩ := chunkStep_ok hstep
    exact (channel_iteration hguard hiteration).trans hs
  exact Runs.invariant_of_guarded hstep cs s s' us hchannel hrenews h

/-- The messages up to the first one with a chunk that is refused: the state they leave, and the
messages behind them. -/
def untilRefused (app : Application T) (s : T) :
    List (List (List UInt8)) → Except Fault (T × List (List (List UInt8)))
  | [] => .ok (s, [])
  | m :: ms =>
      match Runs.run (chunkStep app) s m with
      | .error (s, .status _) => .ok (s, ms)
      | .error (_, .doubleFree) => .error Fault.doubleFree
      | .ok (s, _) => untilRefused app s ms

theorem chunksResult_flatten (s : T) (ms : List (List (List UInt8))) :
    bufferResult (chunksResult (Runs.run (chunkStep app) s ms.flatten)) =
      (untilRefused app s ms).map Prod.fst := by
  induction ms generalizing s with
  | nil => rfl
  | cons m ms ih =>
    rw [List.flatten_cons, untilRefused]
    rcases hrun : Runs.run (chunkStep app) s m with ⟨s', status | _⟩ | ⟨s', us⟩
    · rw [Runs.run_append_error hrun]
      rfl
    · rw [Runs.run_append_error hrun]
      rfl
    · rw [Runs.run_append_of_ok hrun]
      dsimp only
      rw [← ih s']
      cases Runs.run (chunkStep app) s' ms.flatten with
      | error r => rfl
      | ok q => rfl

theorem error_untilRefused {s : T} {ms : List (List (List UInt8))} {e : Fault}
    (h : untilRefused app s ms = .error e) : e = Fault.doubleFree := by
  induction ms generalizing s with
  | nil => cases h
  | cons m ms ih =>
    rw [untilRefused] at h
    split at h
    · cases h
    · cases h
      rfl
    · exact ih h

theorem deliver_untilRefused {ms : List (List (List UInt8))}
    (hms : ∀ m ∈ ms, IsMessage sv recvBufferSize m) (hchannel : s.connection.channel = some channel)
    (hrenews : RenewsOnly sv channel s ms.flatten) (hfuel : ms.flatten.length ≤ fuel) :
    deliver sv fuel s (ms.map List.flatten) =
      untilRefused (application sv channel) s ms >>= fun r =>
        deliver sv fuel r.1 (r.2.map List.flatten) := by
  induction ms generalizing s with
  | nil => rfl
  | cons m ms ih =>
    rw [List.flatten_cons] at hrenews hfuel
    rw [List.length_append] at hfuel
    have hm := hms m List.mem_cons_self
    obtain ⟨hfirst, hrest⟩ := Runs.guarded_append hrenews
    rw [List.map_cons, deliver,
      processBinaryMessage_chunks hchannel hm.chunk hm.nonempty (by omega), untilRefused]
    rcases hrun : Runs.run (chunkStep (application sv channel)) s m with
      ⟨s', status | _⟩ | ⟨s', us⟩
    · rfl
    · rfl
    · exact ih (fun m' hm' => hms m' (List.mem_cons_of_mem _ hm'))
        (channel_run hchannel hfirst hrun) (hrest s' us hrun) (by omega)

theorem decodeHello_behind {offset : Nat} {helloMessage : HelloMessage}
    (h : decodeHello chunk offset = some helloMessage) (behind : List UInt8) :
    decodeHello (chunk ++ behind) offset = some helloMessage := by
  unfold decodeHello at h ⊢
  simp only [Option.bind_eq_bind, Option.bind_eq_some_iff] at h ⊢
  obtain ⟨r0, h0, r1, h1, r2, h2, r3, h3, r4, h4, r5, h5, hhello⟩ := h
  exact ⟨r0, readUInt32_behind h0 behind, r1, readUInt32_behind h1 behind,
    r2, readUInt32_behind h2 behind, r3, readUInt32_behind h3 behind,
    r4, readUInt32_behind h4 behind, r5, readString_behind h5 behind, hhello⟩

theorem processWithoutChannel_behind (s : Served S) (h : IsClientChunk sv recvBufferSize chunk) :
    ∃ s', ∀ behind, processWithoutChannel sv s (chunk ++ behind) = .ok s' := by
  have hge := h.framed.size_ge
  have hkind := h.kind
  obtain ⟨word, hword⟩ := exists_readUInt32 chunk 0 (by omega)
  obtain ⟨size, hsize⟩ := exists_readUInt32 chunk 4 (by omega)
  obtain ⟨channelId, hchannel⟩ := exists_readUInt32 chunk 8 (by omega)
  rw [messageTypeIn, hword] at hkind
  dsimp only at hkind
  have hopen : ∀ behind, processWithoutChannel sv s (chunk ++ behind) =
      let messageType := word &&& 0x00ffffff
      if messageType = messageTypeErr then .ok (processERR s (chunk ++ behind) 8)
      else if messageType = messageTypeHel then .ok (processHEL sv s (chunk ++ behind) 8)
      else if messageType = messageTypeOpn then
        .ok (processOPN sv s channelId ((chunk ++ behind).drop 12))
      else .ok s.close := by
    intro behind
    unfold processWithoutChannel
    simp only [Option.bind_eq_bind, Option.bind_some, Nat.zero_add, Nat.reduceAdd,
      readUInt32_behind hword, readUInt32_behind hsize, readUInt32_behind hchannel]
  rcases hkind with ⟨htype, hhello⟩ | ⟨htype, hself⟩ | ⟨htype, -⟩
  · obtain ⟨helloMessage, hhello⟩ := Option.isSome_iff_exists.mp hhello
    refine ⟨processHEL sv s chunk 8, ?_⟩
    intro behind
    rw [hopen, htype]
    dsimp only
    rw [if_neg (by decide), if_pos rfl]
    unfold processHEL
    rw [decodeHello_behind hhello behind, hhello]
  · refine ⟨processOPN sv s channelId (chunk.drop 12), ?_⟩
    intro behind
    rw [hopen, htype]
    dsimp only
    rw [if_neg (by decide), if_neg (by decide), if_pos rfl,
      List.drop_append_of_le_length (by omega)]
    unfold processOPN
    rw [hself behind]
  · refine ⟨s.close, ?_⟩
    intro behind
    rw [hopen]
    dsimp only
    rcases htype with htype | htype
    · rw [htype, if_neg (by decide), if_neg (by decide), if_neg (by decide)]
    · rw [htype, if_neg (by decide), if_neg (by decide), if_neg (by decide)]

/-- The messages of one buffer that are processed: the state they leave, and the messages that are
lost behind them. -/
def untilLost (sv : Services S) (s : Served S) (ms : List (List (List UInt8))) :
    Except Fault (Served S × List (List (List UInt8))) :=
  match s.connection.channel, ms with
  | some channel, ms => untilRefused (application sv channel) s ms
  | none, [] => .ok (s, [])
  | none, m :: ms => (processWithoutChannel sv s m.flatten).map fun s => (s, ms)

/-- Messages have the same effect in one buffer and in a buffer each: they leave the same state, or
the program dies of a buffer that is freed twice. -/
def SameEffect (sv : Services S) (fuel : Nat) (s : Served S) (ms : List (List (List UInt8))) :
    Prop :=
  processBinaryMessage sv fuel s (ms.map List.flatten).flatten =
      deliver sv fuel s (ms.map List.flatten) ∧
    ∀ e, processBinaryMessage sv fuel s (ms.map List.flatten).flatten = .error e →
      e = Fault.doubleFree

section Deliveries

variable {ms : List (List (List UInt8))} (hne : ms ≠ [])
  (hms : ∀ m ∈ ms, IsMessage sv recvBufferSize m)
  (hrenews : ∀ channel, s.connection.channel = some channel → RenewsOnly sv channel s ms.flatten)
  (hfuel : ms.flatten.length ≤ fuel)

include hne hms hrenews hfuel

/-- Both deliveries by what is processed and what is lost of one buffer. -/
theorem deliveries_eq :
    processBinaryMessage sv fuel s (ms.map List.flatten).flatten =
        (untilLost sv s ms).map Prod.fst ∧
      deliver sv fuel s (ms.map List.flatten) =
        untilLost sv s ms >>= (fun r => deliver sv fuel r.1 (r.2.map List.flatten)) ∧
      ∀ e, untilLost sv s ms = .error e → e = Fault.doubleFree := by
  cases hchannel : s.connection.channel with
  | none =>
    obtain ⟨m, ms, rfl⟩ := List.exists_cons_of_ne_nil hne
    have hm := hms m List.mem_cons_self
    obtain ⟨chunk, cs, rfl⟩ := List.exists_cons_of_ne_nil hm.nonempty
    obtain ⟨kept, hkept⟩ := processWithoutChannel_behind s (hm.chunk chunk List.mem_cons_self)
    have hfirst : processWithoutChannel sv s (chunk :: cs).flatten = .ok kept := hkept _
    have hlost : untilLost sv s ((chunk :: cs) :: ms) = .ok (kept, ms) := by
      unfold untilLost
      rw [hchannel]
      dsimp only
      rw [hfirst]
      rfl
    rw [hlost]
    refine ⟨?_, ?_, nofun⟩
    · rw [processBinaryMessage, hchannel, List.map_cons, List.flatten_cons, List.flatten_cons,
        List.append_assoc]
      exact hkept _
    · rw [List.map_cons, deliver, processBinaryMessage, hchannel]
      dsimp only
      rw [hfirst]
      rfl
  | some channel =>
    have hall : ∀ c ∈ ms.flatten, IsClientChunk sv recvBufferSize c := by
      intro c hc
      obtain ⟨m, hm, hc⟩ := List.mem_flatten.mp hc
      exact (hms m hm).chunk c hc
    have hnonempty : ms.flatten ≠ [] := by
      obtain ⟨m, ms, rfl⟩ := List.exists_cons_of_ne_nil hne
      intro hnil
      rw [List.flatten_cons, List.append_eq_nil_iff] at hnil
      exact (hms m List.mem_cons_self).nonempty hnil.1
    have hlost : untilLost sv s ms = untilRefused (application sv channel) s ms := by
      unfold untilLost
      rw [hchannel]
    rw [hlost]
    refine ⟨?_, deliver_untilRefused hms hchannel (hrenews channel hchannel) hfuel,
      fun e => error_untilRefused⟩
    rw [← List.flatten_flatten, processBinaryMessage_chunks hchannel hall hnonempty hfuel,
      chunksResult_flatten]

/-- As long as nothing is lost the messages have the same effect in one buffer and in a buffer
each. -/
theorem sameEffect_of_none_lost (h : ∀ kept lost, untilLost sv s ms = .ok (kept, lost) →
    lost = []) :
    SameEffect sv fuel s ms := by
  obtain ⟨htogether, hseparate, herror⟩ := deliveries_eq hne hms hrenews hfuel
  unfold SameEffect
  rw [htogether, hseparate]
  rcases hlost : untilLost sv s ms with e | ⟨kept, lost⟩
  · exact ⟨rfl, fun e' he => herror e' (hlost ▸ Except.error.inj he ▸ rfl)⟩
  · rw [h kept lost hlost]
    exact ⟨rfl, nofun⟩

end Deliveries

/-- Messages have the same effect in one buffer and in a buffer each exactly if none is lost, or
those that are lost would change nothing. -/
theorem coalesced_iff (sv : Services S) (recvBufferSize : UInt32) (s : Served S)
    (ms : List (List (List UInt8))) (hne : ms ≠ []) (hms : ∀ m ∈ ms, IsMessage sv recvBufferSize m)
    (hrenews : ∀ channel, s.connection.channel = some channel →
      RenewsOnly sv channel s ms.flatten)
    (fuel : Nat) (hfuel : ms.flatten.length ≤ fuel) :
    SameEffect sv fuel s ms ↔
      ∀ kept lost, untilLost sv s ms = .ok (kept, lost) →
        lost = [] ∨ deliver sv fuel kept (lost.map List.flatten) = .ok kept := by
  by_cases hnone : ∀ kept lost, untilLost sv s ms = .ok (kept, lost) → lost = []
  · exact iff_of_true (sameEffect_of_none_lost hne hms hrenews hfuel hnone)
      fun kept lost hlost => Or.inl (hnone kept lost hlost)
  · obtain ⟨htogether, hseparate, -⟩ := deliveries_eq hne hms hrenews hfuel
    push Not at hnone
    obtain ⟨kept, lost, hlost, hsome⟩ := hnone
    unfold SameEffect
    rw [htogether, hseparate, hlost]
    constructor
    · rintro ⟨heq, -⟩ kept' lost' hlost'
      obtain ⟨rfl, rfl⟩ := Prod.mk.inj (Except.ok.inj hlost')
      exact Or.inr heq.symm
    · intro hnothing
      exact ⟨((hnothing kept lost rfl).resolve_left hsome).symm, nofun⟩

/-- A server with one channel at most, and the message types of its responses. -/
structure SampleServer where
  channel : Channel
  responses : List MessageType
  deriving DecidableEq

/-- The fields of an OPN message with null strings, a numeric authentication token and no additional
header, at their offsets behind the channel id. -/
def decodeSampleOPN (message : List UInt8) : Option OpenMessage := do
  let (sequenceNumber, _) ← readUInt32 message 12
  let (requestId, _) ← readUInt32 message 16
  let (requestType, _) ← readUInt32 message 57
  let (securityMode, _) ← readUInt32 message 61
  let (requestedLifetime, _) ← readUInt32 message 69
  some { sequenceNumber, requestId, request := { requestType, securityMode, requestedLifetime } }

/-- The first channel and its first token get the number one. -/
def sampleServices : Services SampleServer where
  channelAt := fun server _ => server.channel
  setChannelAt := fun server _ channel => { server with channel }
  acknowledge := fun server _ =>
    ({ server with responses := server.responses ++ [messageTypeAck] }, true)
  decodeOPN := decodeSampleOPN
  openChannel := fun server _ =>
    ({ server with channel := ⟨⟨⟨1, 1⟩, ⟨0, 0⟩, 0⟩, []⟩ }, some 1, .structure .nil)
  renewChannel := fun server _ _ => (server, .structure .nil)
  respondOPN := fun server _ _ _ _ =>
    ({ server with responses := server.responses ++ [messageTypeOpn] }, true)
  processMSG := fun server _ _ _ _ => (server, true)
  closeSecureChannel := fun server _ => server

def sampleServed : Served SampleServer where
  connection := { state := .opening, configs := standardConnection, channel := none }
  server := { channel := ⟨⟨⟨0, 0⟩, ⟨0, 0⟩, 0⟩, []⟩, responses := [] }

def sampleHEL : List UInt8 :=
  [0x48, 0x45, 0x4C, 0x46, 32, 0, 0, 0, 0, 0, 0, 0, 0, 0, 1, 0, 0, 0, 1, 0, 0, 0, 0, 0, 0, 0, 0, 0,
    0xFF, 0xFF, 0xFF, 0xFF]

/-- An OPN message that asks for a channel without security. -/
def sampleOPN : List UInt8 :=
  [0x4F, 0x50, 0x4E, 0x46, 85, 0, 0, 0, 0, 0, 0, 0] ++ List.replicate 12 0xFF ++
    [51, 0, 0, 0, 1, 0, 0, 0, 1, 0, 0xBE, 0x01, 0, 0] ++ List.replicate 16 0 ++
    [0xFF, 0xFF, 0xFF, 0xFF, 0, 0, 0, 0, 0, 0, 0, 0, 0, 0, 0, 0, 0, 0, 0, 1, 0, 0, 0,
      0xFF, 0xFF, 0xFF, 0xFF, 0x80, 0xEE, 0x36, 0]

theorem decodeSampleOPN_behind (behind : List UInt8) :
    decodeSampleOPN (sampleOPN.drop 12 ++ behind) = decodeSampleOPN (sampleOPN.drop 12) := by
  have hfield : ∀ k, k + 4 ≤ (sampleOPN.drop 12).length →
      readUInt32 (sampleOPN.drop 12 ++ behind) k = readUInt32 (sampleOPN.drop 12) k :=
    fun k hk => (readUInt32_of_front (List.prefix_append _ behind) hk).symm
  unfold decodeSampleOPN
  rw [hfield 12 (by decide), hfield 16 (by decide), hfield 57 (by decide), hfield 61 (by decide),
    hfield 69 (by decide)]

theorem isMessage_sample :
    ∀ m ∈ [[sampleHEL], [sampleOPN]], IsMessage sampleServices 65535 m := by
  have hhel : IsClientChunk sampleServices 65535 sampleHEL :=
    ⟨⟨by decide, ⟨32, 8, by decide, by decide⟩, by decide, by decide⟩,
      Or.inl ⟨by decide, by decide⟩⟩
  have hopn : IsClientChunk sampleServices 65535 sampleOPN :=
    ⟨⟨by decide, ⟨85, 8, by decide, by decide⟩, by decide, by decide⟩,
      Or.inr (Or.inl ⟨by decide, decodeSampleOPN_behind⟩)⟩
  intro m hm
  simp only [List.mem_cons, List.not_mem_nil, or_false] at hm
  rcases hm with rfl | rfl
  · exact ⟨List.cons_ne_nil _ _, fun c hc => List.mem_singleton.mp hc ▸ hhel⟩
  · exact ⟨List.cons_ne_nil _ _, fun c hc => List.mem_singleton.mp hc ▸ hopn⟩

theorem coalesced_iff_sample :
    SameEffect sampleServices 2 sampleServed [[sampleHEL], [sampleOPN]] ↔
      ∀ kept lost, untilLost sampleServices sampleServed [[sampleHEL], [sampleOPN]] =
          .ok (kept, lost) →
        lost = [] ∨ deliver sampleServices 2 kept (lost.map List.flatten) = .ok kept :=
  coalesced_iff sampleServices 65535 sampleServed [[sampleHEL], [sampleOPN]] (List.cons_ne_nil _ _)
    isMessage_sample (fun _ h => nomatch h) 2 (by decide)

/-- The OPN message behind the HEL message is lost: the channel is opened and answered for only if
it comes in a buffer of its own. -/
theorem openBehindHello_lost :
    (processBinaryMessage sampleServices 2 sampleServed (sampleHEL ++ sampleOPN)).map
        (fun s => (s.connection.channel, s.server.responses)) = .ok (none, [messageTypeAck]) ∧
      (deliver sampleServices 2 sampleServed [sampleHEL, sampleOPN]).map
        (fun s => (s.connection.channel, s.server.responses)) =
          .ok (some 1, [messageTypeAck, messageTypeOpn]) ∧
      ¬ SameEffect sampleServices 2 sampleServed [[sampleHEL], [sampleOPN]] := by
  have htogether : (processBinaryMessage sampleServices 2 sampleServed (sampleHEL ++ sampleOPN)).map
      (fun s => (s.connection.channel, s.server.responses)) = .ok (none, [messageTypeAck]) := by
    decide
  have hseparate : (deliver sampleServices 2 sampleServed [sampleHEL, sampleOPN]).map
      (fun s => (s.connection.channel, s.server.responses)) =
        .ok (some 1, [messageTypeAck, messageTypeOpn]) := by
    decide
  refine ⟨htogether, hseparate, fun hsame => ?_⟩
  have heq : processBinaryMessage sampleServices 2 sampleServed (sampleHEL ++ sampleOPN) =
      deliver sampleServices 2 sampleServed [sampleHEL, sampleOPN] := hsame.1
  rw [heq] at htogether
  exact nomatch htogether.symm.trans hseparate

end FactoryThing.Transport
