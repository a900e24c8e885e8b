import FactoryThing.Transport.CompleteMessages

/-!
# Segmentation of the stream

However a stream of chunks is cut into packets, the buffers handed on are whole chunks, and what is
kept is the beginning of the next one (`segmentation`). Everything rests on one function of the
bytes: at the start of a chunk sequence `completeChunksUntil` runs to the end of its last complete
chunk (`completeChunksUntil_chunks`).
-/

namespace FactoryThing.Transport

open FactoryThing.SecureChannel

/-- A chunk as the framing knows it: a message type it recognizes and a size field that gives its
length, between 16 and the receive buffer size. -/
structure IsChunk (recvBufferSize : UInt32) (chunk : List UInt8) : Prop where
  type_mem : msgtypeAt chunk 0 ∈ messageTypes
  size_eq : ∃ size next, readUInt32 chunk 4 = some (size, next) ∧ size.toNat = chunk.length
  size_ge : 16 ≤ chunk.length
  size_le : chunk.length ≤ recvBufferSize.toNat

/-- What is left of a stream of chunks in the middle of `rest`: nothing, or the beginning of the
next chunk. -/
def IsRemainder (rest : List (List UInt8)) (tail : List UInt8) : Prop :=
  tail = [] ∨ ∃ chunk rest', rest = chunk :: rest' ∧ tail <+: chunk ∧ tail.length < chunk.length

theorem msgtypeAt_append (front middle : List UInt8) :
    msgtypeAt (front ++ middle) front.length = msgtypeAt middle 0 := by
  unfold msgtypeAt
  rw [List.drop_left, List.drop_zero]

theorem msgtypeAt_of_front {p q : List UInt8} (h : p <+: q) (hlen : 3 ≤ p.length) :
    msgtypeAt p 0 = msgtypeAt q 0 := by
  obtain ⟨rest, rfl⟩ := h
  match p, hlen with
  | b0 :: b1 :: b2 :: p', _ => rfl

theorem readUInt32_append (front middle : List UInt8) (k : Nat) :
    (readUInt32 (front ++ middle) (front.length + k)).map Prod.fst =
      (readUInt32 middle k).map Prod.fst := by
  unfold readUInt32
  rw [List.drop_length_add_append]
  split
  · rfl
  · rfl

theorem readUInt32_of_front {p q : List UInt8} (h : p <+: q) {k : Nat} (hlen : k + 4 ≤ p.length) :
    readUInt32 p k = readUInt32 q k := by
  obtain ⟨rest, rfl⟩ := h
  unfold readUInt32
  rw [List.drop_append_of_le_length (by omega)]
  have hdrop : 4 ≤ (p.drop k).length := by
    rw [List.length_drop]
    omega
  match p.drop k, hdrop with
  | b0 :: b1 :: b2 :: b3 :: p', _ => rfl

section Chunks

variable {recvBufferSize : UInt32}

theorem IsChunk.header {chunk p : List UInt8} (hchunk : IsChunk recvBufferSize chunk)
    (hfront : p <+: chunk ∨ chunk <+: p) (hlen : 8 ≤ p.length) :
    msgtypeAt p 0 ∈ messageTypes ∧
      ∃ size next, readUInt32 p 4 = some (size, next) ∧ size.toNat = chunk.length ∧
        ¬ (size < 16 ∨ size > recvBufferSize) := by
  obtain ⟨size, next, hread, hsize⟩ := hchunk.size_eq
  have hge := hchunk.size_ge
  have hle := hchunk.size_le
  have hbounds : ¬ (size < 16 ∨ size > recvBufferSize) := by
    simp only [UInt32.lt_iff_toNat_lt, gt_iff_lt, hsize, UInt32.reduceToNat]
    omega
  have hsame : msgtypeAt p 0 = msgtypeAt chunk 0 ∧ readUInt32 p 4 = readUInt32 chunk 4 := by
    obtain h | h := hfront
    · exact ⟨msgtypeAt_of_front h (by omega), readUInt32_of_front h (by omega)⟩
    · exact ⟨(msgtypeAt_of_front h (by omega)).symm, (readUInt32_of_front h (by omega)).symm⟩
  rw [hsame.1, hsame.2]
  exact ⟨hchunk.type_mem, size, next, hread, hsize, hbounds⟩

theorem completeChunksUntil_remainder {rest : List (List UInt8)} {tail front : List UInt8}
    (hrest : ∀ c ∈ rest, IsChunk recvBufferSize c) (htail : IsRemainder rest tail) :
    completeChunksUntil recvBufferSize (front ++ tail) front.length = (front.length, false) := by
  rw [completeChunksUntil]
  split
  · next hlen =>
    rw [List.length_append, Nat.add_sub_cancel_left] at hlen
    obtain rfl | ⟨chunk, rest', rfl, hfront, hshort⟩ := htail
    · simp at hlen
    · obtain ⟨htype, size, next, hread, hsize, hbounds⟩ :=
        (hrest chunk List.mem_cons_self).header (Or.inl hfront) hlen
      have hfield := readUInt32_append front tail 4
      rw [hread] at hfield
      obtain ⟨⟨size', next'⟩, hread', rfl⟩ := Option.map_eq_some_iff.mp hfield
      rw [msgtypeAt_append, if_neg (not_not_intro htype), hread']
      dsimp only at hsize hbounds ⊢
      rw [if_neg hbounds, if_pos (by rw [List.length_append]; omega)]
  · rfl

theorem completeChunksUntil_chunks {done rest : List (List UInt8)} {tail : List UInt8}
    (hdone : ∀ c ∈ done, IsChunk recvBufferSize c) (hrest : ∀ c ∈ rest, IsChunk recvBufferSize c)
    (htail : IsRemainder rest tail) (front : List UInt8) :
    completeChunksUntil recvBufferSize (front ++ (done.flatten ++ tail)) front.length =
      (front.length + done.flatten.length, false) := by
  induction done generalizing front with
  | nil => exact completeChunksUntil_remainder hrest htail
  | cons chunk done ih =>
    have hchunk := hdone chunk List.mem_cons_self
    have hge := hchunk.size_ge
    have hih := ih (fun c hc => hdone c (List.mem_cons_of_mem _ hc)) (front ++ chunk)
    rw [List.length_append, List.append_assoc, ← List.append_assoc chunk] at hih
    have hall : chunk ++ (done.flatten ++ tail) = (chunk :: done).flatten ++ tail := by simp
    have hfront : chunk <+: (chunk :: done).flatten ++ tail := ⟨done.flatten ++ tail, hall⟩
    have hlen8 : 8 ≤ ((chunk :: done).flatten ++ tail).length := by
      have := hfront.length_le
      omega
    obtain ⟨htype, size, next, hread, hsize, hbounds⟩ := hchunk.header (Or.inr hfront) hlen8
    have hfield := readUInt32_append front ((chunk :: done).flatten ++ tail) 4
    rw [hread] at hfield
    obtain ⟨⟨size', next'⟩, hread', rfl⟩ := Option.map_eq_some_iff.mp hfield
    rw [completeChunksUntil, if_pos (by rw [List.length_append]; omega), msgtypeAt_append,
      if_neg (not_not_intro htype), hread']
    dsimp only at hsize hbounds ⊢
    rw [if_neg hbounds, if_neg (by rw [List.length_append]; have := hfront.length_le; omega), hsize]
    rw [List.append_assoc, hall] at hih
    rw [hih]
    simp [Nat.add_assoc]

end Chunks

theorem exists_split_of_prefix {cs : List (List UInt8)} {received : List UInt8}
    (h : received <+: cs.flatten) : ∃ done rest tail, cs = done ++ rest ∧
      received = done.flatten ++ tail ∧ IsRemainder rest tail := by
  induction cs generalizing received with
  | nil => exact ⟨[], [], [], rfl, by simpa using h, Or.inl rfl⟩
  | cons chunk cs ih =>
    by_cases hshort : received.length < chunk.length
    · have hfront : received <+: chunk :=
        List.prefix_of_prefix_length_le h (List.prefix_append _ _) (Nat.le_of_lt hshort)
      exact ⟨[], chunk :: cs, received, rfl, rfl, Or.inr ⟨chunk, cs, rfl, hfront, hshort⟩⟩
    · have hfront : chunk <+: received :=
        List.prefix_of_prefix_length_le (List.prefix_append _ _) h (Nat.le_of_not_lt hshort)
      obtain ⟨received', rfl⟩ := hfront
      obtain ⟨done, rest, tail, rfl, rfl, htail⟩ := ih ((List.prefix_append_right_inj chunk).mp h)
      exact ⟨chunk :: done, rest, tail, rfl, by simp, htail⟩

theorem prepended_eq (connection : Connection) (packet : List UInt8) (realloced : Bool) :
    ∃ realloced', (if connection.incompleteMessage.length > 0 then
        prependIncomplete connection packet
      else ⟨connection, packet, realloced, StatusCode.good⟩ : Result) =
      ⟨⟨connection.recvBufferSize, []⟩, connection.incompleteMessage ++ packet, realloced',
        StatusCode.good⟩ := by
  split
  · exact ⟨true, rfl⟩
  · next hempty =>
    have hnil : connection.incompleteMessage = [] := List.eq_nil_of_length_eq_zero (by omega)
    refine ⟨realloced, ?_⟩
    rw [hnil, List.nil_append, ← hnil]

theorem completeMessages_chunks {connection : Connection} {packet : List UInt8} (realloced : Bool)
    {done rest : List (List UInt8)} {tail : List UInt8}
    (hdone : ∀ c ∈ done, IsChunk connection.recvBufferSize c)
    (hrest : ∀ c ∈ rest, IsChunk connection.recvBufferSize c)
    (hmessage : connection.incompleteMessage ++ packet = done.flatten ++ tail)
    (htail : IsRemainder rest tail) :
    ∃ realloced', completeMessages connection packet realloced =
      ⟨⟨connection.recvBufferSize, tail⟩, done.flatten, realloced', StatusCode.good⟩ := by
  obtain ⟨realloced', hstart⟩ := prepended_eq connection packet realloced
  have hend := completeChunksUntil_chunks hdone hrest htail []
  simp only [List.nil_append, List.length_nil, Nat.zero_add] at hend
  simp only [completeMessages, hstart, hmessage, hend]
  generalize done.flatten = whole
  cases tail with
  | nil => exact ⟨realloced', by simp⟩
  | cons b bs =>
    by_cases hnone : whole.length = 0
    · have hnil : whole = [] := List.eq_nil_of_length_eq_zero hnone
      exact ⟨true, by simp [separateIncompleteChunk, hnil]⟩
    · exact ⟨realloced', by simp [separateIncompleteChunk, hnone]⟩

/-- What the receiver has made of the first `received` bytes of a stream of chunks. -/
structure Segmented (cs : List (List UInt8)) (received : List UInt8) (outputs : List (List UInt8))
    (incomplete : List UInt8) : Prop where
  concat : outputs.flatten ++ incomplete = received
  boundary : ∀ k, ∃ j, (outputs.take k).flatten = (cs.take j).flatten
  remainder : ∃ j, outputs.flatten = (cs.take j).flatten ∧ IsRemainder (cs.drop j) incomplete

theorem receivePackets_segmented {cs : List (List UInt8)} {connection : Connection}
    {packets : List (List UInt8 × Bool)} (hcs : ∀ c ∈ cs, IsChunk connection.recvBufferSize c)
    (hkept : IsRemainder cs connection.incompleteMessage)
    (hstream : connection.incompleteMessage ++ (packets.map Prod.fst).flatten <+: cs.flatten) :
    (∀ r ∈ (receivePackets connection packets).2, r.status = StatusCode.good) ∧
      Segmented cs (connection.incompleteMessage ++ (packets.map Prod.fst).flatten)
        ((receivePackets connection packets).2.map Result.message)
        (receivePackets connection packets).1.incompleteMessage := by
  induction packets generalizing cs connection with
  | nil =>
    refine ⟨fun r hr => (nomatch hr), by simp [receivePackets], ?_, 0, rfl, hkept⟩
    exact fun k => ⟨0, by simp [receivePackets]⟩
  | cons p packets ih =>
    obtain ⟨packet, realloced⟩ := p
    rw [List.map_cons, List.flatten_cons, ← List.append_assoc] at hstream ⊢
    obtain ⟨done, rest, tail, rfl, hmessage, htail⟩ :=
      exists_split_of_prefix ((List.prefix_append _ _).trans hstream)
    have hrest : ∀ c ∈ rest, IsChunk connection.recvBufferSize c :=
      fun c hc => hcs c (List.mem_append_right _ hc)
    obtain ⟨realloced', hcall⟩ := completeMessages_chunks realloced
      (fun c hc => hcs c (List.mem_append_left _ hc)) hrest hmessage htail
    rw [hmessage, List.flatten_append, List.append_assoc, List.prefix_append_right_inj] at hstream
    obtain ⟨hgood, hconcat, hboundary, j, hj, hremainder⟩ :=
      ih (show ∀ c ∈ rest, IsChunk (Connection.mk connection.recvBufferSize tail).recvBufferSize c
        from hrest) htail hstream
    have hrun : receivePackets connection ((packet, realloced) :: packets) =
        ((receivePackets ⟨connection.recvBufferSize, tail⟩ packets).1,
          ⟨⟨connection.recvBufferSize, tail⟩, done.flatten, realloced', StatusCode.good⟩ ::
            (receivePackets ⟨connection.recvBufferSize, tail⟩ packets).2) := by
      simp only [receivePackets, hcall]
    rw [hrun]
    refine ⟨?_, ?_, ?_, done.length + j, ?_, ?_⟩
    · intro r hr
      obtain rfl | hr := List.mem_cons.mp hr
      · rfl
      · exact hgood r hr
    · rw [List.map_cons, List.flatten_cons, List.append_assoc, hconcat, hmessage, List.append_assoc]
    · intro k
      cases k with
      | zero => exact ⟨0, rfl⟩
      | succ k =>
        obtain ⟨j', hj'⟩ := hboundary k
        refine ⟨done.length + j', ?_⟩
        rw [List.map_cons, List.take_succ_cons, List.flatten_cons, hj', List.take_length_add_append,
          List.flatten_append]
    · rw [List.map_cons, List.flatten_cons, hj, List.take_length_add_append, List.flatten_append]
    · rwa [List.drop_length_add_append]

/-- Segmentation does not matter: the outputs and what is kept are the received stream, every output
ends on a chunk boundary, and what is kept is the beginning of one chunk. -/
theorem segmentation (recvBufferSize : UInt32) (cs : List (List UInt8))
    (hcs : ∀ c ∈ cs, IsChunk recvBufferSize c) (packets : List (List UInt8 × Bool))
    (hstream : (packets.map Prod.fst).flatten <+: cs.flatten) :
    (∀ r ∈ (receivePackets ⟨recvBufferSize, []⟩ packets).2, r.status = StatusCode.good) ∧
      Segmented cs (packets.map Prod.fst).flatten
        ((receivePackets ⟨recvBufferSize, []⟩ packets).2.map Result.message)
        (receivePackets ⟨recvBufferSize, []⟩ packets).1.incompleteMessage :=
  receivePackets_segmented hcs (Or.inl rfl) hstream

/-- A chunk of sixteen bytes cut inside of its header. -/
theorem segmentation_cutHeader :
    (∀ r ∈ (receivePackets ⟨64, []⟩ [([0x4D, 0x53, 0x47], false),
      ([0x46, 16, 0, 0, 0, 1, 0, 0, 0, 2, 0, 0, 0], false)]).2, r.status = StatusCode.good) ∧
      Segmented [[0x4D, 0x53, 0x47, 0x46, 16, 0, 0, 0, 1, 0, 0, 0, 2, 0, 0, 0]]
        [0x4D, 0x53, 0x47, 0x46, 16, 0, 0, 0, 1, 0, 0, 0, 2, 0, 0, 0]
        ((receivePackets ⟨64, []⟩ [([0x4D, 0x53, 0x47], false),
          ([0x46, 16, 0, 0, 0, 1, 0, 0, 0, 2, 0, 0, 0], false)]).2.map Result.message)
        (receivePackets ⟨64, []⟩ [([0x4D, 0x53, 0x47], false),
          ([0x46, 16, 0, 0, 0, 1, 0, 0, 0, 2, 0, 0, 0], false)]).1.incompleteMessage :=
  segmentation 64 [[0x4D, 0x53, 0x47, 0x46, 16, 0, 0, 0, 1, 0, 0, 0, 2, 0, 0, 0]]
    (fun c hc => List.mem_singleton.mp hc ▸
      ⟨by decide, ⟨16, 8, by decide, by decide⟩, by decide, by decide⟩)
    [([0x4D, 0x53, 0x47], false), ([0x46, 16, 0, 0, 0, 1, 0, 0, 0, 2, 0, 0, 0], false)]
    (List.prefix_refl _)

end FactoryThing.Transport
