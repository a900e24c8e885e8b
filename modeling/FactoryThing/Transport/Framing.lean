import FactoryThing.SecureChannel.ChunkLoop
import FactoryThing.Transport.Segmentation

/-!
# The chunk walker and the framing

The framing finds the end of a chunk by its size field. So does the loop over received chunks,
except for an ERR chunk, which it takes apart as a message and leaves where the reason string ends.
The loop visits the chunks one after the other and returns exactly when in every ERR chunk it
reaches the reason ends with the chunk, and no chunk frees a buffer twice (`followsFraming_iff`). A
size field smaller than the headers does not matter: the subtraction and the addition of the header
length cancel out.
-/

namespace FactoryThing.Transport

open FactoryThing.SecureChannel

def IsErr (chunk : List UInt8) : Prop := chunk.take 3 = [0x45, 0x52, 0x52]

/-- The reason string of an ERR chunk, behind its header and the error code, ends with the chunk. -/
def ReasonFits (chunk : List UInt8) : Prop :=
  ∃ reason, readString chunk 12 = some (reason, chunk.length)

/-- Each iteration starts at the first byte of the next chunk and leaves at its end, or returns. -/
def Aligned : List (List UInt8) → (start : Nat) → List (Nat × (LoopEnd ⊕ Nat)) → Prop
  | _, _, [] => True
  | [], _, _ :: _ => False
  | _ :: _, start, (offset, .inl _) :: rest => offset = start ∧ rest = []
  | chunk :: cs, start, (offset, .inr next) :: rest =>
      offset = start ∧ next = start + chunk.length ∧ Aligned cs next rest

variable {S : Type} {app : Application S} {recvBufferSize : UInt32}

/-- The loop returns, and its iterations visit the chunks one after the other. -/
structure FollowsFraming (app : Application S) (s : S) (cs : List (List UInt8)) : Prop where
  ends : ∃ fuel status, (runChunks app cs.flatten fuel s 0).2 = some (.status status)
  aligned : ∀ fuel, Aligned cs 0 (iterations app cs.flatten fuel s 0)

/-- No chunk that the loop comes to is the second one without payload of a request, and in every ERR
chunk that it takes apart the reason ends with the chunk. -/
def Walkable (app : Application S) (chunks : List UInt8) : S → (start : Nat) →
    List (List UInt8) → Prop
  | _, _, [] => True
  | s, start, chunk :: cs =>
      ¬ FreesTwiceAt (app.channel s) chunks start ∧
        ((iteration app chunks s start).2.isRight = true →
          (IsErr chunk → ReasonFits chunk) ∧
            Walkable app chunks (iteration app chunks s start).1 (start + chunk.length) cs)

instance (chunk : List UInt8) : Decidable (IsErr chunk) := inferInstanceAs (Decidable (_ = _))

instance (chunk : List UInt8) : Decidable (ReasonFits chunk) :=
  decidable_of_iff ((readString chunk 12).map Prod.snd = some chunk.length) (by simp [ReasonFits])

instance decidableWalkable (app : Application S) (chunks : List UInt8) : (s : S) → (start : Nat) →
    (cs : List (List UInt8)) → Decidable (Walkable app chunks s start cs)
  | _, _, [] => .isTrue trivial
  | s, start, chunk :: cs =>
      have := decidableWalkable app chunks (iteration app chunks s start).1
        (start + chunk.length) cs
      inferInstanceAs (Decidable (_ ∧ (_ → _ ∧ _)))

theorem isErr_append {chunk : List UInt8} (behind : List UInt8) (h : 16 ≤ chunk.length) :
    ((chunk ++ behind).drop 0).take 3 = [0x45, 0x52, 0x52] ↔ IsErr chunk := by
  rw [List.drop_zero, List.take_append_of_le_length (by omega), IsErr]

theorem reasonFits_iff {chunk behind : List UInt8} (h : 16 ≤ chunk.length) {reason : UaString}
    {next : Nat} (hread : readString (chunk ++ behind) 12 = some (reason, next)) :
    next = chunk.length ↔ ReasonFits chunk := by
  have hfield :=
    readUInt32_of_front (List.prefix_append chunk behind) (show 12 + 4 ≤ chunk.length from h)
  unfold ReasonFits
  unfold readString at hread ⊢
  rw [hfield]
  cases hlength : readUInt32 (chunk ++ behind) 12 with
  | none => simp [hlength] at hread
  | some r =>
    obtain ⟨length, offset⟩ := r
    obtain rfl := offset_of_readUInt32 hlength
    simp only [hlength, Option.bind_eq_bind, Option.bind_some] at hread ⊢
    split at hread
    · next hnull =>
      injection hread with hread
      obtain ⟨rfl, rfl⟩ := Prod.mk.inj hread
      simp [hnull]
    · next hnull =>
      rw [if_neg hnull]
      split at hread
      · next hzero =>
        injection hread with hread
        obtain ⟨rfl, rfl⟩ := Prod.mk.inj hread
        simp [hzero]
      · next hzero =>
        rw [if_neg hzero]
        split at hread
        · injection hread with hread
          obtain ⟨rfl, rfl⟩ := Prod.mk.inj hread
          constructor
          · intro hend
            rw [if_pos (Nat.le_of_eq hend), hend]
            exact ⟨_, rfl⟩
          · intro hfits
            obtain ⟨reason, hfits⟩ := hfits
            split at hfits
            · injection hfits with hfits
              exact (Prod.mk.inj hfits).2
            · exact nomatch hfits
        · exact nomatch hread

theorem iteration_next {s s' : S} {front chunk behind : List UInt8} {next : Nat}
    (h : IsChunk recvBufferSize chunk)
    (hstep : iteration app (front ++ (chunk ++ behind)) s front.length = (s', .inr next)) :
    next = front.length + chunk.length ↔ (IsErr chunk → ReasonFits chunk) := by
  have hge := h.size_ge
  have hlong : 3 < (chunk ++ behind).length := by
    rw [List.length_append]
    omega
  have hshift := readChunk_shift (app.channel s).link front 0 hlong
  rw [Nat.add_zero] at hshift
  unfold iteration at hstep
  rw [hshift] at hstep
  cases hitem : (readChunk (app.channel s).link (chunk ++ behind) 0).2 with
  | stop status => simp [hitem, Item.shift] at hstep
  | error code reason n =>
    obtain ⟨herr, hreason⟩ := readChunk_error hitem
    have hnext : front.length + n = next := by
      simp only [hitem, Item.shift, Prod.mk.injEq, Sum.inr.injEq] at hstep
      exact hstep.2
    rw [isErr_append behind hge] at herr
    rw [← hnext, Nat.add_right_inj, reasonFits_iff hge hreason]
    exact ⟨fun h _ => h, fun h => h herr⟩
  | chunk c n =>
    obtain ⟨hno, size, hsize, rfl⟩ := readChunk_chunk hitem
    have herr : ¬ IsErr chunk := fun herr =>
      hno ⟨by rw [List.length_append]; omega, (isErr_append behind hge).mpr herr⟩
    obtain ⟨size', next', hsize', hlength⟩ := h.size_eq
    have hfield : readUInt32 chunk 4 = readUInt32 (chunk ++ behind) 4 :=
      readUInt32_of_front (List.prefix_append chunk behind) (by omega)
    rw [hfield, show 4 = 0 + 4 from rfl, hsize] at hsize'
    obtain rfl : size = size' := congrArg Prod.fst (Option.some.inj hsize')
    have hnext : front.length + (0 + size.toNat) = next := by
      rcases hprocess : processChunk (app.channel s).chunks c with _ | ⟨entries, _ | callback⟩
      · simp [hitem, Item.shift, hprocess] at hstep
      · simp only [hitem, Item.shift, hprocess, Prod.mk.injEq, Sum.inr.injEq] at hstep
        exact hstep.2
      · simp only [hitem, Item.shift, hprocess, Prod.mk.injEq, Sum.inr.injEq] at hstep
        exact hstep.2
    rw [← hnext, hlength, Nat.zero_add]
    exact ⟨fun _ h => absurd h herr, fun _ => rfl⟩

theorem length_lt_of_ne_nil (front chunk : List UInt8) {cs : List (List UInt8)}
    (hcs : ∀ c ∈ cs, IsChunk recvBufferSize c) (hne : cs ≠ []) :
    front.length + chunk.length < (front ++ (chunk ++ cs.flatten)).length := by
  obtain ⟨c, cs', rfl⟩ := List.exists_cons_of_ne_nil hne
  have hge := (hcs c List.mem_cons_self).size_ge
  rw [List.length_append, List.length_append, List.flatten_cons, List.length_append]
  omega

theorem walkable_iff (app : Application S) {cs : List (List UInt8)}
    (hcs : ∀ c ∈ cs, IsChunk recvBufferSize c) (hne : cs ≠ []) (front : List UInt8) (s : S) :
    ((∃ fuel status, (runChunks app (front ++ cs.flatten) fuel s front.length).2 =
        some (.status status)) ∧
      ∀ fuel, Aligned cs front.length
        (iterations app (front ++ cs.flatten) fuel s front.length)) ↔
      Walkable app (front ++ cs.flatten) s front.length cs := by
  induction cs generalizing front s with
  | nil => exact absurd rfl hne
  | cons chunk cs ih =>
    have hchunk := hcs chunk List.mem_cons_self
    have hrest : ∀ c ∈ cs, IsChunk recvBufferSize c := fun c hc => hcs c (List.mem_cons_of_mem _ hc)
    rw [List.flatten_cons, Walkable]
    rw [← iteration_doubleFree_iff]
    rcases hstep : iteration app (front ++ (chunk ++ cs.flatten)) s front.length with
      ⟨s', (status | _) | next⟩
    · refine iff_of_true ⟨⟨1, status, by rw [runChunks, hstep]⟩, fun fuel => ?_⟩
        ⟨fun h => ?_, fun h => ?_⟩
      · cases fuel with
        | zero => exact trivial
        | succ fuel =>
          rw [iterations, hstep]
          exact ⟨rfl, rfl⟩
      · cases h
      · cases h
    · refine iff_of_false ?_ fun h => h.1 rfl
      rintro ⟨⟨fuel, status, hends⟩, -⟩
      cases fuel with
      | zero => cases hends
      | succ fuel =>
        rw [runChunks, hstep] at hends
        cases hends
    · have hnext := iteration_next hchunk hstep
      have hfront : front ++ (chunk ++ cs.flatten) = (front ++ chunk) ++ cs.flatten := by
        rw [List.append_assoc]
      have hlength : (front ++ chunk).length = front.length + chunk.length := List.length_append
      constructor
      · rintro ⟨⟨fuel, status, hends⟩, haligned⟩
        have hfirst := haligned 1
        rw [iterations, hstep] at hfirst
        obtain rfl := hfirst.2.1
        refine ⟨fun h => ?_, fun _ => ⟨hnext.mp rfl, ?_⟩⟩
        · cases h
        by_cases hnil : cs = []
        · subst hnil
          exact trivial
        · have hmore := length_lt_of_ne_nil front chunk hrest hnil
          have hih := (ih hrest hnil (front ++ chunk) s').mp
          rw [hlength, ← hfront] at hih
          refine hih ⟨?_, fun fuel => ?_⟩
          · cases fuel with
            | zero => cases hends
            | succ fuel =>
              rw [runChunks, hstep] at hends
              dsimp only at hends
              rw [if_pos hmore] at hends
              exact ⟨fuel, status, hends⟩
          · have hfuel := haligned (fuel + 1)
            rw [iterations, hstep] at hfuel
            obtain ⟨-, -, htail⟩ := hfuel
            rwa [if_pos hmore] at htail
      · rintro ⟨-, hwalks⟩
        obtain ⟨herr, htail⟩ := hwalks rfl
        obtain rfl := hnext.mpr herr
        by_cases hnil : cs = []
        · subst hnil
          refine ⟨⟨1, StatusCode.good, ?_⟩, fun fuel => ?_⟩
          · rw [runChunks, hstep]
            simp
          · cases fuel with
            | zero => exact trivial
            | succ fuel =>
              rw [iterations, hstep]
              refine ⟨rfl, rfl, ?_⟩
              rw [if_neg (by simp)]
              exact trivial
        · have hmore := length_lt_of_ne_nil front chunk hrest hnil
          have hih := (ih hrest hnil (front ++ chunk) s').mpr
          rw [hlength, ← hfront] at hih
          obtain ⟨⟨fuel, status, hends⟩, haligned⟩ := hih htail
          refine ⟨⟨fuel + 1, status, ?_⟩, fun fuel => ?_⟩
          · rw [runChunks, hstep]
            dsimp only
            rwa [if_pos hmore]
          · cases fuel with
            | zero => exact trivial
            | succ fuel =>
              rw [iterations, hstep]
              refine ⟨rfl, rfl, ?_⟩
              rw [if_pos hmore]
              exact haligned fuel

/-- The chunk walker follows the framing exactly when, in every ERR chunk it takes apart, the
reason ends with the chunk, and no chunk it comes to frees a buffer twice. -/
theorem followsFraming_iff (app : Application S) (s : S) (recvBufferSize : UInt32)
    (cs : List (List UInt8)) (hcs : ∀ c ∈ cs, IsChunk recvBufferSize c) (hne : cs ≠ []) :
    FollowsFraming app s cs ↔ Walkable app cs.flatten s 0 cs := by
  have hwalk := walkable_iff app hcs hne [] s
  rw [List.nil_append, List.length_nil] at hwalk
  rw [← hwalk]
  exact ⟨fun h => ⟨h.ends, h.aligned⟩, fun h => ⟨h.1, h.2⟩⟩

/-- An ERR chunk with a null string for its reason, and the two chunks of a MSG for request 7. -/
def errBehindMsg : List (List UInt8) :=
  [[0x4D, 0x53, 0x47, 0x43, 26, 0, 0, 0, 1, 0, 0, 0, 1, 0, 0, 0, 1, 0, 0, 0, 7, 0, 0, 0, 0x41,
    0x42], [0x45, 0x52, 0x52, 0x46, 16, 0, 0, 0, 0, 0, 0, 0x80, 0xFF, 0xFF, 0xFF, 0xFF],
    [0x4D, 0x53, 0x47, 0x46, 25, 0, 0, 0, 1, 0, 0, 0, 1, 0, 0, 0, 2, 0, 0, 0, 7, 0, 0, 0, 0x43]]

theorem followsFraming_errBehindMsg :
    FollowsFraming silent ⟨⟨⟨1, 1⟩, ⟨0, 0⟩, 0⟩, []⟩ errBehindMsg := by
  refine (followsFraming_iff silent _ 8192 errBehindMsg ?_ (List.cons_ne_nil _ _)).mpr
    (by decide +kernel)
  intro c hc
  simp only [errBehindMsg, List.mem_cons, List.not_mem_nil, or_false] at hc
  obtain rfl | rfl | rfl := hc
  · exact ⟨by decide, ⟨26, 8, by decide, by decide⟩, by decide, by decide⟩
  · exact ⟨by decide, ⟨16, 8, by decide, by decide⟩, by decide, by decide⟩
  · exact ⟨by decide, ⟨25, 8, by decide, by decide⟩, by decide, by decide⟩

/-- The bytes behind the reason of an ERR chunk are taken for the next chunk. -/
theorem errPadding_taken :
    (∀ c ∈ [[0x45, 0x52, 0x52, 0x46, 40, 0, 0, 0, 0, 0, 0, 0x80, 0xFF, 0xFF, 0xFF, 0xFF,
        0x4D, 0x53, 0x47, 0x46, 24, 0, 0, 0, 1, 0, 0, 0, 1, 0, 0, 0, 1, 0, 0, 0, 7, 0, 0, 0],
        [0x4D, 0x53, 0x47, 0x46, 24, 0, 0, 0, 1, 0, 0, 0, 1, 0, 0, 0, 1, 0, 0, 0, 7, 0, 0, 0]],
      IsChunk 8192 c) ∧
    ¬ FollowsFraming silent ⟨⟨⟨1, 1⟩, ⟨0, 0⟩, 0⟩, []⟩
      [[0x45, 0x52, 0x52, 0x46, 40, 0, 0, 0, 0, 0, 0, 0x80, 0xFF, 0xFF, 0xFF, 0xFF,
        0x4D, 0x53, 0x47, 0x46, 24, 0, 0, 0, 1, 0, 0, 0, 1, 0, 0, 0, 1, 0, 0, 0, 7, 0, 0, 0],
        [0x4D, 0x53, 0x47, 0x46, 24, 0, 0, 0, 1, 0, 0, 0, 1, 0, 0, 0, 1, 0, 0, 0, 7, 0, 0, 0]] := by
  constructor
  · intro c hc
    simp only [List.mem_cons, List.not_mem_nil, or_false] at hc
    obtain rfl | rfl := hc
    · exact ⟨by decide, ⟨40, 8, by decide, by decide⟩, by decide, by decide⟩
    · exact ⟨by decide, ⟨24, 8, by decide, by decide⟩, by decide, by decide⟩
  · intro h
    have hnext : (0 : Nat) = 0 ∧ 16 = 0 + 40 ∧ _ := h.aligned 1
    exact absurd hnext.2.1 (by decide)

end FactoryThing.Transport
