import FactoryThing.SecureChannel.Receive

/-!
# The loop over received chunks and its callback

`UA_SecureChannel_processChunks` (`src/ua_securechannel.c:358-457`) with the callback it is given.
The callback may change anything, the channel included, before the next chunk is read: an OPN chunk
sets the sequence number and issues a token in the middle of the loop. Where the next chunk is read
does not depend on what lies in front of it (`readChunk_shift`).
-/

namespace FactoryThing.SecureChannel

/-- What the loop works on: a state that holds the channel, and the callback with its
`application` argument. -/
structure Application (S : Type) where
  channel : S → Channel
  setChannel : S → Channel → S
  callback : S → Callback → S

variable {S : Type}

/-- One iteration at an offset: how the loop ends with it, or the offset after it. -/
def iteration (app : Application S) (chunks : List UInt8) (s : S) (offset : Nat) :
    S × (LoopEnd ⊕ Nat) :=
  match readChunk (app.channel s).link chunks offset with
  | (link, .stop status) =>
      (app.setChannel s { app.channel s with link := link }, .inl (.status status))
  | (link, .error code reason next) =>
      (app.callback (app.setChannel s { app.channel s with link := link }) (.error code reason),
        .inr next)
  | (link, .chunk chunk next) =>
      match processChunk (app.channel s).chunks chunk with
      | none => (app.setChannel s { app.channel s with link := link }, .inl .doubleFree)
      | some (entries, none) => (app.setChannel s ⟨link, entries⟩, .inr next)
      | some (entries, some callback) =>
          (app.callback (app.setChannel s ⟨link, entries⟩) callback, .inr next)

/-- The loop with at most `fuel` iterations, and how it ended; `none` if it has not ended yet. -/
def runChunks (app : Application S) (chunks : List UInt8) :
    (fuel : Nat) → S → (offset : Nat) → S × Option LoopEnd
  | 0, s, _ => (s, none)
  | fuel + 1, s, offset =>
      match iteration app chunks s offset with
      | (s, .inl ended) => (s, some ended)
      | (s, .inr next) =>
          if chunks.length > next then runChunks app chunks fuel s next
          else (s, some (.status StatusCode.good))

/-- The iterations of the loop: where each one starts and how it ends. -/
def iterations (app : Application S) (chunks : List UInt8) :
    (fuel : Nat) → S → (offset : Nat) → List (Nat × (LoopEnd ⊕ Nat))
  | 0, _, _ => []
  | fuel + 1, s, offset =>
      match iteration app chunks s offset with
      | (_, .inl ended) => [(offset, .inl ended)]
      | (s, .inr next) =>
          (offset, .inr next) ::
            if chunks.length > next then iterations app chunks fuel s next else []

theorem runChunks_map {T : Type} {app : Application S} {app' : Application T} (f : S → T)
    (hchannel : ∀ s, app'.channel (f s) = app.channel s)
    (hset : ∀ s channel, app'.setChannel (f s) channel = f (app.setChannel s channel))
    (hcallback : ∀ s callback, app'.callback (f s) callback = f (app.callback s callback))
    (chunks : List UInt8) (fuel : Nat) (s : S) (offset : Nat) :
    runChunks app' chunks fuel (f s) offset =
      (f (runChunks app chunks fuel s offset).1, (runChunks app chunks fuel s offset).2) := by
  have hiteration : ∀ s offset, iteration app' chunks (f s) offset =
      (f (iteration app chunks s offset).1, (iteration app chunks s offset).2) := by
    intro s offset
    unfold iteration
    simp only [hchannel, hset, hcallback]
    split
    · rfl
    · rfl
    · split
      · rfl
      · rfl
      · rfl
  induction fuel generalizing s offset with
  | zero => rfl
  | succ fuel ih =>
    rw [runChunks, runChunks, hiteration]
    obtain ⟨s', ended | next⟩ := iteration app chunks s offset
    · rfl
    · dsimp only
      split
      · exact ih s' next
      · rfl

/-- The chunk at an offset frees a buffer twice. -/
def FreesTwiceAt (channel : Channel) (chunks : List UInt8) (offset : Nat) : Prop :=
  match (readChunk channel.link chunks offset).2 with
  | .chunk c _ => FreesTwice (entryBytes channel.chunks c.requestId) c
  | _ => False

instance (channel : Channel) (chunks : List UInt8) (offset : Nat) :
    Decidable (FreesTwiceAt channel chunks offset) := by
  unfold FreesTwiceAt
  split
  · infer_instance
  · infer_instance

theorem iteration_doubleFree_iff {app : Application S} {chunks : List UInt8} {s : S}
    {offset : Nat} :
    (iteration app chunks s offset).2 = .inl .doubleFree ↔
      FreesTwiceAt (app.channel s) chunks offset := by
  unfold iteration FreesTwiceAt
  rcases readChunk (app.channel s).link chunks offset with ⟨link, item⟩
  cases item with
  | stop status => exact iff_of_false nofun id
  | error code reason next => exact iff_of_false nofun id
  | chunk c next =>
    dsimp only
    rw [← processChunk_eq_none_iff]
    rcases processChunk (app.channel s).chunks c with _ | ⟨entries, _ | callback⟩
    · exact iff_of_true rfl rfl
    · exact iff_of_false nofun nofun
    · exact iff_of_false nofun nofun

def silent : Application Channel where
  channel := fun channel => channel
  setChannel := fun _ channel => channel
  callback := fun channel _ => channel

theorem offset_of_readUInt32 {src : List UInt8} {k n : Nat} {v : UInt32}
    (h : readUInt32 src k = some (v, n)) : n = k + 4 := by
  unfold readUInt32 at h
  split at h
  · exact (congrArg Prod.snd (Option.some.inj h)).symm
  · exact nomatch h

theorem readChunk_error {link : Link} {chunks : List UInt8} {offset next : Nat} {code : UInt32}
    {reason : UaString} (h : (readChunk link chunks offset).2 = .error code reason next) :
    (chunks.drop offset).take 3 = [0x45, 0x52, 0x52] ∧
      readString chunks (offset + 12) = some (reason, next) := by
  unfold readChunk at h
  split at h
  · next herr =>
    refine ⟨herr.2, ?_⟩
    split at h
    · cases h
    · next code' reason' next' hread =>
      simp only [Option.bind_eq_bind, Option.bind_eq_some_iff, Option.some.injEq] at hread
      obtain ⟨r0, h0, r4, h4, r8, h8, r12, h12, heq⟩ := hread
      rw [offset_of_readUInt32 h8, offset_of_readUInt32 h4, offset_of_readUInt32 h0] at h12
      injection h with _ hreason hnext
      rw [← hreason, ← hnext, h12, ← (Prod.mk.inj (Prod.mk.inj heq).2).1,
        ← (Prod.mk.inj (Prod.mk.inj heq).2).2]
  · split at h
    · cases h
    · split at h
      · cases h
      · dsimp only at h
        split at h
        · cases h
        · split at h
          · cases h
          · cases h

theorem readChunk_chunk {link : Link} {chunks : List UInt8} {offset next : Nat} {c : Chunk}
    (h : (readChunk link chunks offset).2 = .chunk c next) :
    ¬ (chunks.length > 3 ∧ (chunks.drop offset).take 3 = [0x45, 0x52, 0x52]) ∧
      ∃ size, readUInt32 chunks (offset + 4) = some (size, offset + 8) ∧
        next = offset + size.toNat := by
  unfold readChunk at h
  split at h
  · split at h
    · cases h
    · cases h
  · next herr =>
    refine ⟨herr, ?_⟩
    split at h
    · cases h
    · next messageTypeAndChunkType messageSize secureChannelId offset' hread =>
      simp only [Option.bind_eq_bind, Option.bind_eq_some_iff, Option.some.injEq] at hread
      obtain ⟨r0, h0, r4, h4, r8, h8, heq⟩ := hread
      refine ⟨messageSize, ?_, ?_⟩
      · rw [← (Prod.mk.inj (Prod.mk.inj heq).2).1, ← offset_of_readUInt32 h0, h4]
        have hoffset := offset_of_readUInt32 h4
        rw [offset_of_readUInt32 h0] at hoffset
        rw [Option.some.injEq, Prod.ext_iff]
        exact ⟨rfl, hoffset⟩
      · split at h
        · cases h
        · dsimp only at h
          split at h
          · cases h
          · split at h
            · cases h
            · injection h with _ hnext
              exact hnext.symm

def Item.shift (n : Nat) : Item → Item
  | .stop status => .stop status
  | .error code reason next => .error code reason (n + next)
  | .chunk c next => .chunk c (n + next)

theorem readUInt32_shift (front middle : List UInt8) (k : Nat) :
    readUInt32 (front ++ middle) (front.length + k) =
      (readUInt32 middle k).map fun r => (r.1, front.length + r.2) := by
  unfold readUInt32
  rw [List.drop_length_add_append]
  split
  · simp [Nat.add_assoc]
  · rfl

theorem readString_shift (front middle : List UInt8) (k : Nat) :
    readString (front ++ middle) (front.length + k) =
      (readString middle k).map fun r => (r.1, front.length + r.2) := by
  unfold readString
  rw [readUInt32_shift]
  cases readUInt32 middle k with
  | none => rfl
  | some r =>
    obtain ⟨length, offset⟩ := r
    simp only [Option.map_some, Option.bind_eq_bind, Option.bind_some, Nat.add_assoc,
      List.length_append, Nat.add_le_add_iff_left, List.drop_length_add_append]
    split
    · rfl
    · split
      · rfl
      · split
        · rfl
        · rfl

theorem readSequenceHeader_shift (link : Link) (front middle : List UInt8) (k : Nat) :
    readSequenceHeader link (front ++ middle) (front.length + k) =
      let (link, r) := readSequenceHeader link middle k
      (link, r.map fun p => (p.1, front.length + p.2)) := by
  unfold readSequenceHeader
  simp only [Option.bind_eq_bind, readUInt32_shift]
  cases readUInt32 middle k with
  | none => rfl
  | some r =>
    obtain ⟨tokenId, offset⟩ := r
    simp only [Option.map_some, Option.bind_some, readUInt32_shift]
    cases readUInt32 middle offset with
    | none => rfl
    | some r =>
      obtain ⟨sequenceNumber, offset⟩ := r
      simp only [Option.map_some, Option.bind_some, readUInt32_shift]
      cases readUInt32 middle offset with
      | none => rfl
      | some r =>
        obtain ⟨requestId, offset⟩ := r
        simp only [Option.map_some, Option.bind_some]
        split
        · rfl
        · split
          · rfl
          · rfl

theorem payload_shift (front middle : List UInt8) (o e : Nat) :
    (if front.length + o ≤ front.length + e ∧ front.length + e ≤ (front ++ middle).length then
      some (((front ++ middle).drop (front.length + o)).take
        (front.length + e - (front.length + o)))
    else none) =
      if o ≤ e ∧ e ≤ middle.length then some ((middle.drop o).take (e - o)) else none := by
  simp only [Nat.add_le_add_iff_left, List.length_append, List.drop_length_add_append,
    Nat.add_sub_add_left]

theorem readChunk_shift (link : Link) (front : List UInt8) {middle : List UInt8} (k : Nat)
    (h : 3 < middle.length) :
    readChunk link (front ++ middle) (front.length + k) =
      ((readChunk link middle k).1, (readChunk link middle k).2.shift front.length) := by
  have hlong : (front ++ middle).length > 3 := by
    rw [List.length_append]
    omega
  unfold readChunk
  rw [List.drop_length_add_append]
  simp only [hlong, h, true_and, Option.bind_eq_bind, readUInt32_shift]
  split
  · cases readUInt32 middle k with
    | none => simp [Item.shift]
    | some r =>
      simp only [Option.map_some, Option.bind_some, readUInt32_shift]
      cases readUInt32 middle r.2 with
      | none => simp [Item.shift]
      | some r =>
        simp only [Option.map_some, Option.bind_some, readUInt32_shift]
        cases readUInt32 middle r.2 with
        | none => simp [Item.shift]
        | some r =>
          simp only [Option.map_some, Option.bind_some, readString_shift]
          cases readString middle r.2 with
          | none => simp [Item.shift]
          | some r => simp [Item.shift]
  · cases readUInt32 middle k with
    | none => simp [Item.shift]
    | some r =>
      obtain ⟨messageTypeAndChunkType, offset⟩ := r
      simp only [Option.map_some, Option.bind_some, readUInt32_shift]
      cases readUInt32 middle offset with
      | none => simp [Item.shift]
      | some r =>
        obtain ⟨messageSize, offset⟩ := r
        simp only [Option.map_some, Option.bind_some, readUInt32_shift]
        cases readUInt32 middle offset with
        | none => simp [Item.shift]
        | some r =>
          obtain ⟨secureChannelId, offset⟩ := r
          simp only [Option.map_some, Option.bind_some, readSequenceHeader_shift]
          split
          · simp [Item.shift]
          · by_cases hopn : messageTypeAndChunkType &&& 0x00ffffff = messageTypeOpn
            · simp only [if_pos hopn]
              cases chunkTypeOf messageTypeAndChunkType with
              | none => rfl
              | some t => simp only [Nat.add_assoc, payload_shift, Item.shift]
            · simp only [if_neg hopn]
              cases hheader : readSequenceHeader link middle offset with
              | mk link' r =>
                cases r with
                | error status => rfl
                | ok p =>
                  cases chunkTypeOf messageTypeAndChunkType with
                  | none => rfl
                  | some t =>
                    simp only [Except.map, Nat.add_assoc, payload_shift, Item.shift]

end FactoryThing.SecureChannel
