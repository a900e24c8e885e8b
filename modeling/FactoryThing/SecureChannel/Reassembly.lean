import FactoryThing.SecureChannel.Receive
import Mathlib.Tactic

/-!
# Reassembled messages

What a channel owes the callback is a function of the chunks it has received (`replay`): a final
chunk is delivered behind what is kept of its request. `WellDelivered` says that what is delivered
is a whole message; it is, exactly if what is kept is all that came (`Intact`) and the channel gets
as far as that (`NeverFreedTwice`).
-/

namespace FactoryThing.SecureChannel

/-- The chunks of a request since its last final or abort chunk. -/
def pending (r : UInt32) (history : List Chunk) : List Chunk :=
  history.foldl (fun acc c =>
    if c.requestId = r then if c.chunkType = .intermediate then acc ++ [c] else [] else acc) []

/-- What the channel keeps of a request when one more chunk comes: an entry with some bytes, perhaps
none, or no entry. -/
def keepNext (r : UInt32) (kept : Option (List UInt8)) (c : Chunk) : Option (List UInt8) :=
  if c.requestId = r then
    match c.chunkType, c.payload with
    | .intermediate, some payload => some (kept.getD [] ++ payload)
    | _, _ => none
  else kept

/-- What the channel keeps of a request: the payloads since its last final, abort or ill-sized
chunk. -/
def kept (r : UInt32) (history : List Chunk) : Option (List UInt8) :=
    history.foldl (keepNext r) none

/-- The callback made for a chunk that comes after `history`. -/
def deliver (kept : Option (List UInt8)) (c : Chunk) : Option Callback :=
  match c.chunkType, c.payload with
  | .final, some payload =>
      if kept.getD [] ++ payload ≠ [] then
        some (.message c.messageType c.requestId (kept.getD [] ++ payload))
      else none
  | _, _ => none

/-- The trace of a channel that receives the chunks after `history`. -/
def replay (history : List Chunk) : List Chunk → List Processed
  | [] => []
  | c :: cs => ⟨c, deliver (kept c.requestId history) c⟩ :: replay (history ++ [c]) cs

/-- The message `m` handed over with type `t` for request `r` at the chunk `c` is the concatenation
of the payloads of all chunks of `r` since its last final or abort chunk, and all of them have
type `t`. -/
structure Whole (history : List Chunk) (c : Chunk) (t : MessageType) (r : UInt32)
    (m : List UInt8) : Prop where
  final : c.chunkType = .final
  request : c.requestId = r
  types : ∀ d ∈ pending r history ++ [c], d.messageType = t
  payloads : ∃ ps : List (List UInt8),
    (pending r history ++ [c]).map Chunk.payload = ps.map some ∧ m = ps.flatten

def WellDelivered (trace : List Processed) : Prop :=
  ∀ pre e post, trace = pre ++ e :: post → ∀ t r m, e.callback = some (.message t r m) →
    Whole (pre.map Processed.chunk) e.chunk t r m

/-- Whenever a final chunk that fits comes and there is something to deliver, the chunks of its
request since the last final or abort chunk all fit and have its message type. -/
def Intact (chunks : List Chunk) : Prop :=
  ∀ pre c post, chunks = pre ++ c :: post → c.chunkType = .final → ∀ payload,
    c.payload = some payload → (kept c.requestId pre).getD [] ++ payload ≠ [] →
      ∀ d ∈ pending c.requestId pre, d.messageType = c.messageType ∧ d.payload.isSome = true

/-- No chunk without payload comes for a request of which nothing but chunks without payload is
kept. -/
def NeverFreedTwice (chunks : List Chunk) : Prop :=
  ∀ pre c post, chunks = pre ++ c :: post → ¬ FreesTwice (kept c.requestId pre) c

/-- No chunk after `history` frees a buffer twice. -/
def Survives (history : List Chunk) : List Chunk → Prop
  | [] => True
  | c :: cs => ¬ FreesTwice (kept c.requestId history) c ∧ Survives (history ++ [c]) cs

theorem pending_concat (r : UInt32) (history : List Chunk) (c : Chunk) :
    pending r (history ++ [c]) =
      if c.requestId = r then
        if c.chunkType = .intermediate then pending r history ++ [c] else []
      else pending r history := by
  simp [pending]

theorem kept_concat (r : UInt32) (history : List Chunk) (c : Chunk) :
    kept r (history ++ [c]) = keepNext r (kept r history) c := by
  simp [kept]

theorem kept_eq_flatten (r : UInt32) (history : List Chunk)
    (hfit : ∀ d ∈ pending r history, d.payload.isSome = true) :
    ∃ ps : List (List UInt8), (pending r history).map Chunk.payload = ps.map some ∧
      (kept r history).getD [] = ps.flatten := by
  induction history using List.reverseRecOn with
  | nil => exact ⟨[], rfl, rfl⟩
  | append_singleton history c ih =>
    rw [pending_concat] at hfit ⊢
    rw [kept_concat]
    unfold keepNext
    by_cases hr : c.requestId = r
    · rw [if_pos hr] at hfit ⊢
      rw [if_pos hr]
      by_cases hc : c.chunkType = .intermediate
      · rw [if_pos hc] at hfit ⊢
        obtain ⟨ps, hps, hkept⟩ := ih fun d hd => hfit d (List.mem_append_left _ hd)
        obtain ⟨payload, hpayload⟩ := Option.isSome_iff_exists.1 (hfit c (by simp))
        refine ⟨ps ++ [payload], by simp [hps, hpayload], ?_⟩
        simp [hc, hpayload, hkept]
      · rw [if_neg hc]
        refine ⟨[], rfl, ?_⟩
        split
        · rename_i heq _
          exact absurd heq hc
        · rfl
    · rw [if_neg hr] at hfit ⊢
      rw [if_neg hr]
      exact ih hfit

/-! ## The channel does what `replay` says -/

def Unique (entries : List ChunkEntry) : Prop := (entries.map ChunkEntry.requestId).Nodup

variable {entries : List ChunkEntry} {r : UInt32}

theorem Unique.removeChunk (h : Unique entries) (requestId : UInt32) :
    Unique (removeChunk entries requestId) := by
  unfold Unique SecureChannel.removeChunk
  rw [Keyed.map_key_remove]
  exact h.erase requestId

theorem entryBytes_removeChunk (h : Unique entries) (requestId : UInt32) :
    entryBytes (removeChunk entries requestId) r =
      if requestId = r then none else entryBytes entries r := by
  unfold entryBytes findEntry removeChunk
  split
  · rename_i heq
    subst heq
    rw [Keyed.find_remove_self h]
    rfl
  · rename_i hne
    rw [Keyed.find_remove_ne (Ne.symm hne)]

theorem appendChunk_spec (h : Unique entries) (requestId : UInt32) {payload : Option (List UInt8)}
    (hlives : ¬ (payload = some [] ∧ entryBytes entries requestId = some [])) :
    ∃ entries', appendChunk entries requestId payload = some entries' ∧ Unique entries' ∧
      ∀ r, entryBytes entries' r =
        if requestId = r then
          payload.map fun payload => (entryBytes entries requestId).getD [] ++ payload
        else entryBytes entries r := by
  unfold appendChunk
  cases payload with
  | none => exact ⟨_, rfl, h.removeChunk requestId, fun r => entryBytes_removeChunk h requestId⟩
  | some payload =>
    unfold entryBytes at hlives ⊢
    dsimp only
    cases hfind : findEntry entries requestId with
    | none =>
      refine ⟨_, rfl, List.nodup_cons.2 ⟨Keyed.find_eq_none_iff.1 hfind, h⟩, fun r => ?_⟩
      unfold findEntry
      split
      · rename_i heq
        rw [Keyed.find_cons_self heq]
        rfl
      · rename_i hne
        rw [Keyed.find_cons_ne hne]
    | some ch =>
      rw [hfind] at hlives
      have hkey : ch.requestId = requestId := Keyed.key_of_find hfind
      have hgrown : ∀ ch' : ChunkEntry, ch'.requestId = requestId →
          ({ ch with bytes := ch.bytes ++ payload } : ChunkEntry).requestId = requestId :=
        fun _ _ => hkey
      dsimp only
      rw [append_eq_some fun hempty => hlives ⟨congrArg some hempty.1, congrArg some hempty.2⟩]
      refine ⟨_, rfl, ?_, fun r => ?_⟩
      · unfold Unique
        rw [Keyed.map_key_modify hgrown]
        exact h
      · unfold findEntry
        split
        · rename_i heq
          subst heq
          rw [Keyed.find_modify_self hgrown, show Keyed.find _ _ _ = _ from hfind]
          rfl
        · rename_i hne
          rw [Keyed.find_modify_ne hgrown (Ne.symm hne)]

theorem finalizeChunk_spec (h : Unique entries) (requestId : UInt32) {payload : Option (List UInt8)}
    (hlives : ¬ (payload = some [] ∧ entryBytes entries requestId = some [])) :
    ∃ entries', finalizeChunk entries requestId payload = some (entries',
        (payload.map ((entryBytes entries requestId).getD [] ++ ·)).getD []) ∧ Unique entries' ∧
      ∀ r, entryBytes entries' r = if requestId = r then none else entryBytes entries r := by
  unfold finalizeChunk
  cases payload with
  | none => exact ⟨_, rfl, h.removeChunk requestId, fun r => entryBytes_removeChunk h requestId⟩
  | some payload =>
    unfold entryBytes at hlives ⊢
    dsimp only
    cases hfind : findEntry entries requestId with
    | none =>
      refine ⟨_, rfl, h, fun r => ?_⟩
      split
      · rename_i heq
        rw [← heq, hfind]
        rfl
      · rfl
    | some ch =>
      rw [hfind] at hlives
      dsimp only
      rw [append_eq_some fun hempty => hlives ⟨congrArg some hempty.1, congrArg some hempty.2⟩]
      exact ⟨_, rfl, h.removeChunk requestId, fun r => entryBytes_removeChunk h requestId⟩

theorem processChunk_spec (h : Unique entries) {c : Chunk}
    (hlives : ¬ FreesTwice (entryBytes entries c.requestId) c) :
    ∃ entries',
      processChunk entries c = some (entries', deliver (entryBytes entries c.requestId) c) ∧
      Unique entries' ∧ ∀ r, entryBytes entries' r = keepNext r (entryBytes entries r) c := by
  unfold FreesTwice at hlives
  unfold processChunk keepNext deliver
  cases hc : c.chunkType with
  | intermediate =>
    rw [hc, not_and] at hlives
    obtain ⟨entries', heq, hunique, hkept⟩ := appendChunk_spec h c.requestId (hlives nofun)
    refine ⟨entries', by rw [heq]; rfl, hunique, fun r => ?_⟩
    rw [hkept]
    split
    · rename_i hr
      rw [hr]
      cases c.payload with
      | none => rfl
      | some payload => rfl
    · rfl
  | final =>
    rw [hc, not_and] at hlives
    obtain ⟨entries', heq, hunique, hkept⟩ := finalizeChunk_spec h c.requestId (hlives nofun)
    refine ⟨entries', ?_, hunique, fun r => by rw [hkept]⟩
    rw [heq]
    cases c.payload with
    | none => rfl
    | some payload => simp only [Option.map_some, Option.getD_some, List.length_pos_iff]
  | abort =>
    refine ⟨_, rfl, h.removeChunk c.requestId, fun r => ?_⟩
    rw [entryBytes_removeChunk h]

/-- The channel keeps of every request what it should after `history`. -/
structure Keeps (channel : Channel) (history : List Chunk) : Prop where
  unique : Unique channel.chunks
  bytes : ∀ r, entryBytes channel.chunks r = kept r history

theorem replay_append (history cs cs' : List Chunk) :
    replay history (cs ++ cs') = replay history cs ++ replay (history ++ cs) cs' := by
  induction cs generalizing history with
  | nil => simp [replay]
  | cons c cs ih => simp [replay, ih]

theorem survives_append (history cs cs' : List Chunk) :
    Survives history (cs ++ cs') ↔ Survives history cs ∧ Survives (history ++ cs) cs' := by
  induction cs generalizing history with
  | nil => simp [Survives]
  | cons c cs ih => simp [Survives, ih, and_assoc]

/-- The channel keeps up with the chunks as long as none frees a buffer twice. -/
theorem processChunks_eq (chunks : List UInt8) (fuel : Nat) :
    ∀ (channel : Channel) (history : List Chunk) (offset : Nat), Keeps channel history →
      (¬ Survives history (chunkStream channel.link chunks fuel offset).2 ∧
        (processChunks channel chunks fuel offset).2.2 = some .doubleFree) ∨
      (Survives history (chunkStream channel.link chunks fuel offset).2 ∧
        (processChunks channel chunks fuel offset).2.2 ≠ some .doubleFree ∧
        (processChunks channel chunks fuel offset).1.link =
          (chunkStream channel.link chunks fuel offset).1 ∧
        Keeps (processChunks channel chunks fuel offset).1
          (history ++ (chunkStream channel.link chunks fuel offset).2) ∧
        (processChunks channel chunks fuel offset).2.1 =
          replay history (chunkStream channel.link chunks fuel offset).2) := by
  induction fuel with
  | zero =>
    intro channel history offset h
    refine .inr ⟨trivial, nofun, rfl, ?_, rfl⟩
    rw [show (chunkStream channel.link chunks 0 offset).2 = [] from rfl, List.append_nil]
    exact h
  | succ fuel ih =>
    intro channel history offset h
    have hlink : ∀ link : Link, Keeps { channel with link := link } history :=
      fun _ => ⟨h.unique, h.bytes⟩
    rcases hread : readChunk channel.link chunks offset with ⟨link, item⟩
    cases item with
    | stop status =>
      simp only [processChunks, chunkStream, hread, List.append_nil]
      exact .inr ⟨trivial, nofun, trivial, hlink link, rfl⟩
    | error code reason next =>
      simp only [processChunks, chunkStream, hread]
      split
      · exact ih _ history next (hlink link)
      · exact .inr ⟨trivial, nofun, rfl, by simpa using hlink link, rfl⟩
    | chunk chunk next =>
      simp only [processChunks, chunkStream, hread]
      by_cases htwice : FreesTwice (kept chunk.requestId history) chunk
      · rw [processChunk_eq_none_iff.mpr ((h.bytes _).symm ▸ htwice)]
        refine .inl ⟨?_, rfl⟩
        split
        · exact fun hsurvives => hsurvives.1 htwice
        · exact fun hsurvives => hsurvives.1 htwice
      · obtain ⟨entries, heq, hunique, hbytes⟩ :=
          processChunk_spec h.unique ((h.bytes chunk.requestId).symm ▸ htwice)
        rw [h.bytes] at heq
        have hnext : Keeps ⟨link, entries⟩ (history ++ [chunk]) :=
          ⟨hunique, fun r => by rw [hbytes, h.bytes, kept_concat]⟩
        rw [heq]
        dsimp only
        split
        · obtain ⟨hfalls, hended⟩ | ⟨hsurvives, hended, hlink', hkeeps, htrace⟩ :=
            ih _ (history ++ [chunk]) next hnext
          · exact .inl ⟨fun hsurvives => hfalls hsurvives.2, hended⟩
          · refine .inr ⟨⟨htwice, hsurvives⟩, hended, hlink', by simpa using hkeeps, ?_⟩
            simp only [replay, htrace]
        · exact .inr ⟨⟨htwice, trivial⟩, nofun, rfl, hnext, rfl⟩

/-- The chunks a channel is sent over its life. -/
def received (link : Link) : List (List UInt8 × Nat) → List Chunk
  | [] => []
  | (chunks, fuel) :: rest =>
      let (link, cs) := chunkStream link chunks fuel 0
      cs ++ received link rest

theorem receive_eq (inputs : List (List UInt8 × Nat)) :
    ∀ (channel : Channel) (history : List Chunk), Keeps channel history →
      (¬ Survives history (received channel.link inputs) ∧ (receive channel inputs).1 = none) ∨
      (Survives history (received channel.link inputs) ∧ (receive channel inputs).1.isSome = true ∧
        (receive channel inputs).2 = replay history (received channel.link inputs)) := by
  induction inputs with
  | nil => exact fun _ _ _ => .inr ⟨trivial, rfl, rfl⟩
  | cons input rest ih =>
    intro channel history h
    obtain ⟨chunks, fuel⟩ := input
    unfold receive received
    dsimp only
    rw [survives_append]
    obtain ⟨hfalls, hended⟩ | ⟨hsurvives, hended, hlink, hkeeps, htrace⟩ :=
      processChunks_eq chunks fuel channel history 0 h
    · rw [if_pos hended]
      exact .inl ⟨fun hsurvives => hfalls hsurvives.1, rfl⟩
    · have hrest := ih _ _ hkeeps
      rw [hlink] at hrest
      rw [if_neg hended]
      obtain ⟨hfalls, hnone⟩ | ⟨hsurvives', hsome, htrace'⟩ := hrest
      · exact .inl ⟨fun hsurvives => hfalls hsurvives.2, hnone⟩
      · refine .inr ⟨⟨hsurvives, hsurvives'⟩, hsome, ?_⟩
        rw [replay_append, ← htrace, ← htrace']

theorem survives_iff (cs : List Chunk) : Survives [] cs ↔ NeverFreedTwice cs := by
  constructor
  · rintro h pre c post rfl
    rw [survives_append] at h
    exact h.2.1
  · intro h
    induction cs using List.reverseRecOn with
    | nil => exact trivial
    | append_singleton cs c ih =>
      rw [survives_append]
      refine ⟨ih ?_, h cs c [] rfl, trivial⟩
      rintro pre d post rfl
      exact h pre d (post ++ [c]) (by simp)

theorem map_chunk_replay (history cs : List Chunk) :
    (replay history cs).map Processed.chunk = cs := by
  induction cs generalizing history with
  | nil => rfl
  | cons c cs ih => simp [replay, ih]

theorem replay_split (history cs : List Chunk) (pre : List Processed) (e : Processed)
    (post : List Processed) (h : replay history cs = pre ++ e :: post) :
    cs = pre.map Processed.chunk ++ e.chunk :: post.map Processed.chunk ∧
      e.callback = deliver (kept e.chunk.requestId (history ++ pre.map Processed.chunk))
        e.chunk := by
  have hcs : cs = pre.map Processed.chunk ++ e.chunk :: post.map Processed.chunk := by
    rw [← map_chunk_replay history cs, h]
    simp
  refine ⟨hcs, ?_⟩
  rw [hcs, replay_append, replay] at h
  have hlen : (replay history (pre.map Processed.chunk)).length = pre.length := by
    have := congrArg List.length (map_chunk_replay history (pre.map Processed.chunk))
    simpa using this
  have htail := (List.append_inj h hlen).2
  rw [← (List.cons.inj htail).1]

theorem whole_iff (history : List Chunk) (c : Chunk) (payload : List UInt8)
    (hfinal : c.chunkType = .final) (hpayload : c.payload = some payload) :
    Whole history c c.messageType c.requestId ((kept c.requestId history).getD [] ++ payload) ↔
      ∀ d ∈ pending c.requestId history,
        d.messageType = c.messageType ∧ d.payload.isSome = true := by
  constructor
  · rintro ⟨-, -, htypes, ps, hps, -⟩ d hd
    refine ⟨htypes d (List.mem_append_left _ hd), ?_⟩
    have hmem : d.payload ∈ ps.map some := by
      rw [← hps]
      exact List.mem_map_of_mem (List.mem_append_left _ hd)
    obtain ⟨p, -, hp⟩ := List.mem_map.1 hmem
    rw [← hp]
    rfl
  · intro h
    obtain ⟨ps, hps, hkept⟩ := kept_eq_flatten c.requestId history fun d hd => (h d hd).2
    refine ⟨hfinal, rfl, ?_, ps ++ [payload], by simp [hps, hpayload], by simp [hkept]⟩
    intro d hd
    rcases List.mem_append.1 hd with hd | hd
    · exact (h d hd).1
    · rw [List.mem_singleton.1 hd]

theorem wellDelivered_replay_iff (cs : List Chunk) :
    WellDelivered (replay [] cs) ↔ Intact cs := by
  constructor
  · intro h pre c post hcs hfinal payload hpayload hsome
    rw [← whole_iff pre c payload hfinal hpayload]
    have hsplit : replay [] cs =
        replay [] pre ++ ⟨c, deliver (kept c.requestId pre) c⟩ :: replay (pre ++ [c]) post := by
      rw [hcs, replay_append, replay, List.nil_append]
    have hwhole := h _ _ _ hsplit c.messageType c.requestId
      ((kept c.requestId pre).getD [] ++ payload)
      (by simp only [deliver, hfinal, hpayload, if_pos hsome])
    rwa [map_chunk_replay] at hwhole
  · intro h pre e post hreplay t r m hcallback
    obtain ⟨hcs, hdeliver⟩ := replay_split [] cs pre e post hreplay
    rw [List.nil_append] at hdeliver
    rw [hdeliver] at hcallback
    unfold deliver at hcallback
    split at hcallback
    · rename_i payload hfinal hpayload
      split at hcallback
      · rename_i hsome
        cases hcallback
        exact (whole_iff _ _ _ hfinal hpayload).2 (h _ _ _ hcs hfinal _ hpayload hsome)
      · cases hcallback
    · cases hcallback

/-- Over the life of every channel, whatever it is sent: the program lives and the messages the
channel hands over are whole exactly if the chunks it received are intact and none frees a buffer
twice. -/
theorem receive_wellDelivered_iff (link : Link) (inputs : List (List UInt8 × Nat)) :
    ((receive ⟨link, []⟩ inputs).1.isSome = true ∧ WellDelivered (receive ⟨link, []⟩ inputs).2) ↔
      Intact (received link inputs) ∧ NeverFreedTwice (received link inputs) := by
  rw [← survives_iff]
  obtain ⟨hfalls, hnone⟩ | ⟨hsurvives, hsome, htrace⟩ :=
    receive_eq inputs ⟨link, []⟩ [] ⟨List.nodup_nil, fun _ => rfl⟩
  · rw [hnone]
    exact iff_of_false (fun h => nomatch h.1) fun h => hfalls h.2
  · rw [htrace, wellDelivered_replay_iff]
    exact ⟨fun h => ⟨h.2, hsurvives⟩, fun h => ⟨hsome, h.1⟩⟩

/-- A chunk of a MSG for request 5 on channel 1 with token 1. -/
def msgChunk (chunkType size sequenceNumber : UInt8) (payload : List UInt8) : List UInt8 :=
  [0x4D, 0x53, 0x47, chunkType, size, 0, 0, 0, 1, 0, 0, 0, 1, 0, 0, 0,
    sequenceNumber, 0, 0, 0, 5, 0, 0, 0] ++ payload

/-- Two intermediate chunks and a final one; the size field of the second says 16. -/
def tornMessage : List (List UInt8 × Nat) :=
  [(msgChunk 0x43 26 1 [0x41, 0x42], 4), (msgChunk 0x43 16 2 [0x43, 0x44], 4),
    (msgChunk 0x46 26 3 [0x45, 0x46], 4)]

/-- The last two bytes of `tornMessage` are handed over as the whole message. -/
theorem tornMessage_delivered :
    ¬ ∀ (link : Link) (inputs : List (List UInt8 × Nat)),
      (∀ c ∈ received link inputs, c.messageType ≠ messageTypeOpn) →
      (receive ⟨link, []⟩ inputs).1.isSome = true ∧
        WellDelivered (receive ⟨link, []⟩ inputs).2 := by
  intro h
  have hwhole := (h ⟨⟨1, 1⟩, ⟨0, 0⟩, 0⟩ tornMessage (by decide +kernel)).2
    [⟨⟨messageTypeMsg, .intermediate, 5, some [0x41, 0x42]⟩, none⟩,
      ⟨⟨messageTypeMsg, .intermediate, 5, none⟩, none⟩]
    ⟨⟨messageTypeMsg, .final, 5, some [0x45, 0x46]⟩,
      some (.message messageTypeMsg 5 [0x45, 0x46])⟩ [] (by decide +kernel)
    messageTypeMsg 5 [0x45, 0x46] rfl
  obtain ⟨ps, hps, -⟩ := hwhole.payloads
  have hmem : none ∈ ps.map (some : List UInt8 → _) := by
    rw [← hps]
    decide +kernel
  simp at hmem

end FactoryThing.SecureChannel
