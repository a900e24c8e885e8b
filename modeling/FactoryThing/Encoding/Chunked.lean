import FactoryThing.Encoding.Simulation
import FactoryThing.Encoding.AnnouncedSize

/-!
# Chunked encoding

`UA_encodeBinary` with a callback that takes every buffer as it comes and hands out the next one of
a sequence. What the callback got, followed by what is left in the last buffer, is the encoding
into a single buffer whenever the encoder succeeds (`delivered_of_run`). It succeeds exactly when
the value can be laid out in the buffers (`chunked_iff`). It cannot when an array length outside
of every element is cut off, since the members loop of `UA_encodeBinaryInternal` does not try
arrays again, nor when an element is cut off after an exchange inside of it, since `pos` is then set
back into a buffer that is gone.
-/

namespace FactoryThing.Encoding

open Stateful

/-- A callback that always succeeds: it appends the run to those it got before and answers with the
next buffer of the sequence. -/
def collect (capacities : Nat → Nat) : ExchangeEncodeBuffer (List (List UInt8)) :=
  fun runs run _ => .ok (StatusCode.good, runs ++ [run], some (capacities runs.length))

/-- The buffers of a sequence: a state is the room in the current buffer with its number. -/
def bufferSupply (capacities : Nat → Nat) : Supply (Nat × Nat) where
  serial := fun s => s.2
  room := fun s => s.1
  write := fun s n => (s.1 - n, s.2)
  next := fun s => some (capacities s.2, s.2 + 1)

/-- All bytes the encoder has produced, those handed over and those in the buffer. -/
def delivered (s : EncodeState (List (List UInt8))) : List UInt8 :=
  s.handle.flatten ++ s.pos.before

/-- `pos` is in the current buffer, and one run was handed over per exchange. -/
def Collecting (s : EncodeState (List (List UInt8))) : Prop :=
  s.pos.buffer = s.buffer ∧ s.handle.length = s.buffer

/-- The state of the supply that the encoder is in. -/
def roomAndBuffer (s : EncodeState (List (List UInt8))) : Nat × Nat := (s.room, s.buffer)

variable {capacities : Nat → Nat}

theorem collect_follows : Follows (collect capacities) (bufferSupply capacities) roomAndBuffer
    Collecting (fun _ => False) where
  fresh := fun s hlive => hlive.1
  serial := fun s _ => rfl
  room := fun s _ => rfl
  write := fun s bytes hlive _ => ⟨hlive, by simp [roomAndBuffer, bufferSupply]⟩
  next := by
    intro s t hlive hnext
    refine ⟨s.handle ++ [s.pos.before], some (capacities s.handle.length), rfl, ?_, ?_⟩
    · simp [Collecting, exchanged, hlive.2]
    · have ht : (capacities s.buffer, s.buffer + 1) = t := by
        simpa [bufferSupply, roomAndBuffer] using hnext
      rw [← ht, hlive.2]
      rfl
  refuse := by
    intro s hlive hnext
    simp [bufferSupply] at hnext

@[simp] theorem delivered_write (s : EncodeState (List (List UInt8))) (bytes : List UInt8) :
    delivered (s.write bytes) = delivered s ++ bytes := by
  simp [delivered]

variable {r : StatusCode} {s s' : EncodeState (List (List UInt8))}

theorem run_collect_ok (h : (exchangeBuffer (some (collect capacities))).run s = .ok (r, s')) :
    s.pos.buffer = s.buffer ∧ r = StatusCode.good ∧ delivered s' = delivered s ∧
      s'.pos.buffer = s'.buffer ∧ s.buffer < s'.buffer := by
  obtain ⟨hpos, handle, encodeBuf, hcall, rfl⟩ := run_exchangeBuffer_some_ok.mp h
  obtain ⟨rfl, rfl, rfl⟩ : _ = r ∧ _ = handle ∧ _ = encodeBuf := by
    simpa [collect] using hcall
  exact ⟨hpos, rfl, by simp [delivered, exchanged], rfl, Nat.lt_succ_self _⟩

/-- What a part of the encoder leaves: `pos` is in the current buffer, the buffer is another one or
only bytes were written, and after a success all bytes of the part are delivered. -/
def Delivers (s s' : EncodeState (List (List UInt8))) (r : StatusCode) (bytes : List UInt8) :
    Prop :=
  s'.pos.buffer = s'.buffer ∧ Frame s s' ∧
    (r = StatusCode.good → delivered s' = delivered s ++ bytes)

theorem delivers_of_copy {unit n : Nat} {mem : List UInt8}
    {s s' : EncodeState (List (List UInt8))} {r : StatusCode} (hpos : s.pos.buffer = s.buffer)
    (h : (arrayEncodeBinaryOverlayable (some (collect capacities)) unit n mem).run s =
      .ok (r, s')) : Delivers s s' r mem := by
  induction n generalizing mem s with
  | zero => exact (run_throw_ok.mp h).elim
  | succ n ih =>
    have hround := run_arrayEncodeBinaryOverlayable_succ_ok.mp h
    split at hround
    · obtain ⟨r1, s1, hx, hlast⟩ := hround
      obtain ⟨-, rfl, hsame, hpos1, hlt⟩ := run_collect_ok hx
      obtain ⟨hpos', hframe, hgood⟩ := ih hpos1 hlast
      have hlt' : s.buffer < s1.buffer := hlt
      refine ⟨hpos', (Frame.of_lt hlt').trans hframe, fun hr => ?_⟩
      rw [hgood hr, hsame, delivered_write, List.append_assoc, List.take_append_drop]
    · obtain ⟨rfl, rfl⟩ := hround
      exact ⟨hpos, Frame.write s mem, fun _ => delivered_write s mem⟩

theorem delivers_of_retry {f : EncodeM (List (List UInt8)) StatusCode} {bytes : List UInt8}
    (hbody : ∀ {s s' : EncodeState (List (List UInt8))} {r : StatusCode}, s.pos.buffer = s.buffer →
    f.run s = .ok (r, s') → Delivers s s' r bytes)
    {n : Nat} (hpos : s.pos.buffer = s.buffer)
    (h : (encodeWithExchange (some (collect capacities)) f n).run s = .ok (r, s')) :
    Delivers s s' r bytes := by
  induction n generalizing s with
  | zero => exact (run_throw_ok.mp h).elim
  | succ n ih =>
    obtain ⟨r1, s1, hrun, hrest⟩ := run_encodeWithExchange_succ_ok.mp h
    have hfirst := hbody hpos hrun
    split at hrest
    · obtain ⟨r2, s2, hx, hlast⟩ := hrest
      obtain ⟨hback, rfl, hsame, hpos2, hlt⟩ := run_collect_ok hx
      -- nothing of the first attempt was handed over, so setting `pos` back forgets all of it
      rw [hfirst.2.1.rewind (hback.symm.trans hpos)] at hsame hlt
      obtain ⟨hpos', hframe, hgood⟩ := ih hpos2 hlast
      exact ⟨hpos', (Frame.of_lt hlt).trans hframe, fun hr => by rw [hgood hr, hsame]⟩
    · obtain ⟨rfl, rfl⟩ := hrest
      exact hfirst

theorem delivers_of_run {fuel : Nat} (sc : Script) (hpos : s.pos.buffer = s.buffer)
    (h : (sc.run fuel (some (collect capacities))).run s = .ok (r, s')) :
    Delivers s s' r sc.bytes := by
  induction sc generalizing s s' r with
  | done =>
    obtain ⟨rfl, rfl⟩ := run_pure_ok.mp h
    exact ⟨hpos, Frame.refl s', fun _ => by simp [Script.bytes]⟩
  | write bytes =>
    rw [Script.run, run_encodePrimitive] at h
    split at h
    · obtain ⟨rfl, rfl⟩ : _ = r ∧ s = s' := by simpa using h
      exact ⟨hpos, Frame.refl s, fun hr => absurd hr badEncodingLimitsExceeded_ne_good⟩
    · obtain ⟨rfl, rfl⟩ : _ = r ∧ s.write bytes = s' := by simpa using h
      exact ⟨hpos, Frame.write s bytes, fun _ => delivered_write s bytes⟩
  | copy unit mem => exact delivers_of_copy hpos h
  | fail status bad =>
    obtain ⟨rfl, rfl⟩ := run_pure_ok.mp h
    exact ⟨hpos, Frame.refl s', fun hr => absurd hr bad⟩
  | failAfter sc status bad ih =>
    obtain ⟨r1, s1, hrun, hlast⟩ := run_bind_ok.mp h
    obtain ⟨rfl, rfl⟩ := run_pure_ok.mp hlast
    obtain ⟨hpos', hframe, -⟩ := ih hpos hrun
    exact ⟨hpos', hframe, fun hr => absurd hr bad⟩
  | both a b iha ihb =>
    obtain ⟨r1, s1, ha, r2, hb, rfl⟩ := run_orStatus_ok.mp h
    obtain ⟨hpos1, hframe1, hgood1⟩ := iha hpos ha
    obtain ⟨hpos', hframe, hgood⟩ := ihb hpos1 hb
    refine ⟨hpos', hframe1.trans hframe, fun hr => ?_⟩
    obtain ⟨hr1, hr2⟩ := or_eq_good.mp hr
    rw [hgood hr2, hgood1 hr1, Script.bytes, List.append_assoc]
  | andThen a b iha ihb =>
    obtain ⟨r1, s1, ha, hrest⟩ := run_bind_ok.mp h
    obtain ⟨hpos1, hframe1, hgood1⟩ := iha hpos ha
    by_cases hr1 : r1 = StatusCode.good
    · rw [if_pos hr1] at hrest
      obtain ⟨hpos', hframe, hgood⟩ := ihb hpos1 hrest
      refine ⟨hpos', hframe1.trans hframe, fun hr => ?_⟩
      rw [hgood hr, hgood1 hr1, Script.bytes, List.append_assoc]
    · rw [if_neg hr1] at hrest
      obtain ⟨rfl, rfl⟩ := run_pure_ok.mp hrest
      exact ⟨hpos1, hframe1, fun hr => absurd hr hr1⟩
  | retry sc ih => exact delivers_of_retry ih hpos h

/-- The members of the value can be laid out in the rest of the start buffer and the buffers of
the sequence. -/
def WellLaid (capacities : Nat → Nat) (src : Value) (length : Nat) (before : List UInt8) : Prop :=
  ∃ t, LaysOut (bufferSupply capacities) (membersScript src.members)
    (length - before.length, 0) (.fits t)

theorem delivered_of_encodeBinary {fuel : Nat} {src : Value} {length : Nat} {before : List UInt8}
    {s' : EncodeState (List (List UInt8))}
    (h : encodeBinary fuel (some (collect capacities)) src [] length before =
      .ok (StatusCode.good, s')) :
    delivered s' = before ++ (membersScript src.members).bytes := by
  rw [encodeBinary, ← run_membersScript] at h
  obtain ⟨-, -, hgood⟩ := delivers_of_run _ rfl h
  rw [hgood rfl]
  rfl

/-- Chunked encoding yields the one-buffer encoding exactly when the value can be laid out. -/
theorem chunked_iff (capacities : Nat → Nat) (src : Value) (length : Nat) (before : List UInt8)
    (fuel₁ length₁ : Nat) (one : EncodeState Unit)
    (hone : encodeBinary fuel₁ none src () length₁ [] = .ok (StatusCode.good, one)) :
    (∃ fuel s', encodeBinary fuel (some (collect capacities)) src [] length before =
        .ok (StatusCode.good, s') ∧
        s'.handle.flatten ++ s'.pos.before = before ++ one.pos.before) ↔
      WellLaid capacities src length before := by
  obtain ⟨hfree, hbytes⟩ := encodeBinary_none_good hone
  have htame := tame_membersScript src.members
  have hlive : Collecting ⟨0, some length, ⟨0, before⟩, []⟩ := ⟨rfl, rfl⟩
  constructor
  · intro h
    obtain ⟨fuel, s', h, -⟩ := h
    rw [encodeBinary, ← run_membersScript] at h
    obtain ⟨out, hlays, hends⟩ := lays_of_run collect_follows _ hfree htame hlive h
    cases out with
    | fits t => exact ⟨t, hlays⟩
    | cut t => exact absurd hends.1.symm badEncodingLimitsExceeded_ne_good
    | stopped => exact absurd rfl hends.1.1
  · intro h
    obtain ⟨t, hlays⟩ := h
    obtain ⟨bound, hbound⟩ := (run_of_lays collect_follows hlays hfree htame).exists_bound
    obtain ⟨r, s', hrun, rfl, -⟩ := hbound bound (Nat.le_refl bound) _ hlive rfl
    rw [run_membersScript] at hrun
    refine ⟨bound, s', hrun, ?_⟩
    have hdelivered := delivered_of_encodeBinary hrun
    rw [hbytes]
    exact hdelivered

def numberAndArray : Value :=
  .structure (.scalar (.uint32 1) (.array (.overlay
    { memSize := 4, length := 1, mem := [2, 0, 0, 0], memSize_pos := Nat.succ_pos 3,
      length_pos := Nat.one_pos, size_eq := rfl }) .nil))

/-- Its encoding, cut inside of the first number. -/
theorem chunked_iff_numberAndArray :
    (∃ fuel s', encodeBinary fuel (some (collect fun _ => 16)) numberAndArray [] 3 [] =
        .ok (StatusCode.good, s') ∧
        s'.handle.flatten ++ s'.pos.before = [] ++ [1, 0, 0, 0, 1, 0, 0, 0, 2, 0, 0, 0]) ↔
      WellLaid (fun _ => 16) numberAndArray 3 [] :=
  chunked_iff (fun _ => 16) numberAndArray 3 [] 1 16
    ⟨0, some 16, ⟨0, [1, 0, 0, 0, 1, 0, 0, 0, 2, 0, 0, 0]⟩, ()⟩ rfl

/-- Two bytes are left after the number: the array length is cut, and nothing tries it again. -/
theorem cutLength_fails :
    encodeBinary 1 none numberAndArray () 16 [] = .ok (StatusCode.good,
      ⟨0, some 16, ⟨0, [1, 0, 0, 0, 1, 0, 0, 0, 2, 0, 0, 0]⟩, ()⟩) ∧
    ∀ fuel s', encodeBinary fuel (some (collect fun _ => 16)) numberAndArray [] 6 [] ≠
      .ok (StatusCode.good, s') := by
  refine ⟨rfl, ?_⟩
  intro fuel s' h
  cases fuel with
  | zero => exact nomatch h
  | succ n =>
    have hlimits : encodeBinary (n + 1) (some (collect fun _ => 16)) numberAndArray [] 6 [] =
        .ok (StatusCode.badEncodingLimitsExceeded, ⟨0, some 6, ⟨0, [1, 0, 0, 0]⟩, []⟩) := rfl
    rw [hlimits] at h
    injection h with h
    exact badEncodingLimitsExceeded_ne_good (congrArg Prod.fst h)

end FactoryThing.Encoding
