import FactoryThing.Encoding.Simulation
import FactoryThing.Encoding.AnnouncedSize

/-!
# Where an encoding goes, step by step

`Placement` follows a script through a supply of buffers, by sizes alone, and tells in every case
how it ends: with a status, without a buffer, with an element that is torn, or not within the given
number of repetitions. An element is torn if the end of a buffer cuts it off after a part of it
went into an earlier buffer: the encoder then sets `pos` back to that buffer, which is gone. The
encoder ends as the placement does (`run_place`), whatever the value is and whether it can be
encoded or not.
-/

namespace FactoryThing.Encoding

open Stateful

variable {H σ : Type}

inductive Placement (σ : Type) where
  /-- with a status, in a state of the supply -/
  | ended (retval : StatusCode) (t : σ)
  /-- a buffer was refused -/
  | stopped
  | torn
  | unfinished
  deriving DecidableEq

def Placement.or (retval : StatusCode) : Placement σ → Placement σ
  | ended retval' t => ended (retval ||| retval') t
  | stopped => stopped
  | torn => torn
  | unfinished => unfinished

def Placement.bind (a : Placement σ) (f : StatusCode → σ → Placement σ) : Placement σ :=
  match a with
  | ended retval t => f retval t
  | stopped => stopped
  | torn => torn
  | unfinished => unfinished

/-- Overlayable memory of `length` bytes. -/
def placeCopy (p : Supply σ) (unit : Nat) : (fuel length : Nat) → σ → Placement σ
  | 0, _, _ => .unfinished
  | fuel + 1, length, s =>
    if p.room s < length then
      let possibleMem := p.room s / unit * unit
      match p.next (p.write s possibleMem) with
      | none => .stopped
      | some t => placeCopy p unit fuel (length - possibleMem) t
    else .ended StatusCode.good (p.write s length)

/-- An element that is tried again in the next buffer. -/
def placeRetry (p : Supply σ) (place : σ → Placement σ) : (fuel : Nat) → σ → Placement σ
  | 0, _ => .unfinished
  | fuel + 1, s =>
    (place s).bind fun retval t =>
      if retval = StatusCode.badEncodingLimitsExceeded then
        if p.serial t = p.serial s then
          match p.next s with
          | none => .stopped
          | some u => placeRetry p place fuel u
        else .torn
      else .ended retval t

/-- The placement of a script from a state of the supply. -/
def Script.place (p : Supply σ) (fuel : Nat) : Script → σ → Placement σ
  | done, s => .ended StatusCode.good s
  | write bytes, s =>
    if p.room s < bytes.length then .ended StatusCode.badEncodingLimitsExceeded s
    else .ended StatusCode.good (p.write s bytes.length)
  | copy unit mem, s => placeCopy p unit fuel mem.length s
  | fail status _, s => .ended status s
  | failAfter a status _, s => (a.place p fuel s).bind fun _ t => .ended status t
  | both a b, s => (a.place p fuel s).bind fun retval t => (b.place p fuel t).or retval
  | andThen a b, s =>
    (a.place p fuel s).bind fun retval t =>
      if retval = StatusCode.good then b.place p fuel t else .ended retval t
  | retry a, s => placeRetry p (a.place p fuel) fuel s

theorem Refusal.or {r : StatusCode} (h : Refusal r) (r' : StatusCode) : Refusal (r ||| r') := by
  obtain ⟨hgood, hlimits, habsorb⟩ := h
  refine ⟨fun heq => hgood (or_eq_good.mp heq).1, fun heq => hlimits ?_, ?_⟩
  · rw [← habsorb, ← heq, ← UInt32.or_assoc, UInt32.or_self]
  · rw [UInt32.or_assoc, UInt32.or_comm r', ← UInt32.or_assoc, habsorb]

theorem run_quiet_unchanged (fuel : Nat) (callback : Option (ExchangeEncodeBuffer H)) (sc : Script)
    (hquiet : sc.Quiet) {s : EncodeState H} (hroom : s.room = 0) :
    ∃ r, (sc.run fuel callback).run s = .ok (r, s) := by
  induction sc with
  | done => exact ⟨_, rfl⟩
  | write bytes =>
    rw [Script.run, run_encodePrimitive]
    split
    · exact ⟨_, rfl⟩
    · next hle =>
      have hnil : bytes = [] := List.eq_nil_of_length_eq_zero (by omega)
      subst hnil
      exact ⟨_, by rw [EncodeState.write_nil]⟩
  | copy unit mem => exact hquiet.elim
  | fail status bad => exact ⟨_, rfl⟩
  | failAfter sc status bad ih =>
    obtain ⟨r, hrun⟩ := ih hquiet
    exact ⟨status, run_bind_ok.mpr ⟨r, s, hrun, rfl⟩⟩
  | both a b iha ihb =>
    obtain ⟨r, ha⟩ := iha hquiet.1
    obtain ⟨r', hb⟩ := ihb hquiet.2
    exact ⟨r ||| r', run_orStatus_ok.mpr ⟨r, s, ha, r', hb, rfl⟩⟩
  | andThen a b iha ihb =>
    cases a with
    | write bytes =>
      have ha : ((Script.write bytes).run fuel callback).run s =
          .ok (StatusCode.badEncodingLimitsExceeded, s) := by
        rw [Script.run, run_encodePrimitive, if_pos]
        rw [hroom]
        exact hquiet
      refine ⟨StatusCode.badEncodingLimitsExceeded, run_bind_ok.mpr ⟨_, _, ha, ?_⟩⟩
      rfl
    | _ => exact hquiet.elim
  | retry sc ih => exact hquiet.elim

theorem place_of_calm (p : Supply σ) (fuel : Nat) {sc : Script} (hcalm : sc.Calm) (s : σ) :
    ∃ r t, sc.place p fuel s = .ended r t := by
  induction sc generalizing s with
  | done => exact ⟨_, _, rfl⟩
  | write bytes =>
    rw [Script.place]
    split
    · exact ⟨_, _, rfl⟩
    · exact ⟨_, _, rfl⟩
  | copy unit mem => exact hcalm.elim
  | fail status bad => exact ⟨_, _, rfl⟩
  | failAfter sc status bad ih =>
    obtain ⟨r, t, hplace⟩ := ih hcalm s
    exact ⟨status, t, by rw [Script.place, hplace]; rfl⟩
  | both a b iha ihb =>
    obtain ⟨r, t, ha⟩ := iha hcalm.1 s
    obtain ⟨r', t', hb⟩ := ihb hcalm.2 t
    exact ⟨r ||| r', t', by rw [Script.place, ha, Placement.bind, hb]; rfl⟩
  | andThen a b iha ihb =>
    obtain ⟨r, t, ha⟩ := iha hcalm.1 s
    by_cases hr : r = StatusCode.good
    · obtain ⟨r', t', hb⟩ := ihb hcalm.2 t
      exact ⟨r', t', by rw [Script.place, ha, Placement.bind, if_pos hr, hb]⟩
    · exact ⟨r, t, by rw [Script.place, ha, Placement.bind, if_neg hr]⟩
  | retry sc ih => exact hcalm.elim

/-- The run `result` from the state `s` ends as the placement says. -/
def Placement.Describes (Live Stopped : EncodeState H → Prop) (abs : EncodeState H → σ)
    (s : EncodeState H) (result : Except Fault (StatusCode × EncodeState H)) : Placement σ → Prop
  | .ended retval t => ∃ s', result = .ok (retval, s') ∧ Live s' ∧ abs s' = t ∧ Frame s s'
  | .stopped => ∃ r s', result = .ok (r, s') ∧ Refusal r ∧ Stopped s' ∧ s'.encodeBuf = none ∧
      s.buffer < s'.buffer
  | .torn => result = .error .outOfBounds
  | .unfinished => result = .error .diverges

section Run

variable {callback : ExchangeEncodeBuffer H} {p : Supply σ} {abs : EncodeState H → σ}
  {Live Stopped : EncodeState H → Prop}

theorem Placement.Describes.of_frame {s s1 : EncodeState H} {pl : Placement σ}
    {result : Except Fault (StatusCode × EncodeState H)} (hframe : Frame s s1)
    (h : pl.Describes Live Stopped abs s1 result) : pl.Describes Live Stopped abs s result := by
  cases pl with
  | ended retval t =>
    obtain ⟨s', hrun, hlive, habs, hframe'⟩ := h
    exact ⟨s', hrun, hlive, habs, hframe.trans hframe'⟩
  | stopped =>
    obtain ⟨r, s', hrun, hrefusal, hstopped, hnone, hlt⟩ := h
    exact ⟨r, s', hrun, hrefusal, hstopped, hnone, Nat.lt_of_le_of_lt hframe.le hlt⟩
  | torn | unfinished => exact h

theorem Placement.Describes.bind {s : EncodeState H} {x : EncodeM H StatusCode}
    {f : StatusCode → EncodeM H StatusCode} {pl : Placement σ} {g : StatusCode → σ → Placement σ}
    (h : pl.Describes Live Stopped abs s (x.run s))
    (hnext : ∀ r s1, pl = .ended r (abs s1) → Live s1 → Frame s s1 →
      (g r (abs s1)).Describes Live Stopped abs s1 ((f r).run s1))
    (hstop : pl = .stopped → ∀ r s1, x.run s = .ok (r, s1) → Refusal r → s1.encodeBuf = none →
      ∃ r', (f r).run s1 = .ok (r', s1) ∧ Refusal r') :
    (pl.bind g).Describes Live Stopped abs s ((x >>= f).run s) := by
  cases pl with
  | ended retval t =>
    obtain ⟨s1, hrun, hlive, rfl, hframe⟩ := h
    rw [run_bind_of_ok hrun]
    exact (hnext retval s1 rfl hlive hframe).of_frame hframe
  | stopped =>
    obtain ⟨r, s1, hrun, hrefusal, hstopped, hnone, hlt⟩ := h
    obtain ⟨r', hlast, hrefusal'⟩ := hstop rfl r s1 hrun hrefusal hnone
    rw [run_bind_of_ok hrun]
    exact ⟨r', s1, hlast, hrefusal', hstopped, hnone, hlt⟩
  | torn | unfinished => exact run_bind_error h

theorem run_exchangeBuffer_torn {s : EncodeState H} (h : s.pos.buffer ≠ s.buffer) :
    (exchangeBuffer (some callback)).run s = .error .outOfBounds := by
  rw [exchangeBuffer, run_get_bind, if_pos h]
  rfl

theorem describes_exchange (hf : Follows callback p abs Live Stopped) {s0 s : EncodeState H}
    (hlive : Live s) (hle : s0.buffer ≤ s.buffer) {f : StatusCode → EncodeM H StatusCode}
    {g : σ → Placement σ} (hgood : ∀ s1, Live s1 →
    (g (abs s1)).Describes Live Stopped abs s1 ((f StatusCode.good).run s1))
    (hbad : ∀ r s1, Refusal r → (f r).run s1 = .ok (r, s1)) :
    (match p.next (abs s) with
      | none => Placement.stopped
      | some t => g t).Describes Live Stopped abs s0
          ((exchangeBuffer (some callback) >>= f).run s) := by
  cases hnext : p.next (abs s) with
  | none =>
    obtain ⟨r, s1, hx, hrefusal, hstopped, hnone, hlt⟩ := run_exchange_refuse hf hlive hnext
    rw [run_bind_of_ok hx]
    exact ⟨r, s1, hbad r s1 hrefusal, hrefusal, hstopped, hnone, Nat.lt_of_le_of_lt hle hlt⟩
  | some t =>
    obtain ⟨s1, hx, hlive1, rfl, hlt⟩ := run_exchange_next hf hlive hnext
    rw [run_bind_of_ok hx]
    exact (hgood s1 hlive1).of_frame (.of_lt (Nat.lt_of_le_of_lt hle hlt))

theorem run_placeCopy (hf : Follows callback p abs Live Stopped) (unit n : Nat) :
    ∀ (mem : List UInt8) (s : EncodeState H), Live s →
      (placeCopy p unit n mem.length (abs s)).Describes Live Stopped abs s
        ((arrayEncodeBinaryOverlayable (some callback) unit n mem).run s) := by
  induction n with
  | zero => exact fun _ _ _ => rfl
  | succ n ih =>
    intro mem s hlive
    rw [placeCopy, hf.room s hlive, arrayEncodeBinaryOverlayable, run_get_bind]
    by_cases hlt : s.room < mem.length
    · rw [if_pos hlt, if_pos hlt]
      have hlength := length_take_possible unit hlt
      obtain ⟨hwlive, hwabs⟩ := hf.write s (mem.take (s.room / unit * unit)) hlive
        (by rw [hlength]; exact Nat.div_mul_le_self _ _)
      rw [hlength] at hwabs
      dsimp only
      rw [← hwabs, run_set_bind]
      have hbuffer : s.buffer ≤ (s.write (mem.take (s.room / unit * unit))).buffer := Nat.le_refl _
      refine describes_exchange hf hwlive hbuffer ?_ ?_
      · intro s1 hlive1
        have hrest := ih (mem.drop (s.room / unit * unit)) s1 hlive1
        rw [List.length_drop] at hrest
        exact hrest
      · intro r s1 hrefusal
        rw [if_pos hrefusal.1]
        rfl
    · rw [if_neg hlt, if_neg hlt]
      obtain ⟨hwlive, hwabs⟩ := hf.write s mem hlive (Nat.not_lt.mp hlt)
      exact ⟨s.write mem, rfl, hwlive, hwabs, Frame.write s mem⟩

theorem run_placeRetry (hf : Follows callback p abs Live Stopped) {x : EncodeM H StatusCode}
    {place : σ → Placement σ}
    (hx : ∀ s, Live s → (place (abs s)).Describes Live Stopped abs s (x.run s)) (n : Nat) :
    ∀ s, Live s → (placeRetry p place n (abs s)).Describes Live Stopped abs s
      ((encodeWithExchange (some callback) x n).run s) := by
  induction n with
  | zero => exact fun _ _ => rfl
  | succ n ih =>
    intro s hlive
    rw [placeRetry, encodeWithExchange, run_get_bind]
    refine (hx s hlive).bind ?_ ?_
    · intro r s1 _ hlive1 hframe
      by_cases hlimits : r = StatusCode.badEncodingLimitsExceeded
      · rw [if_pos hlimits, if_pos hlimits, hf.serial s1 hlive1, hf.serial s hlive,
          run_modify_bind]
        by_cases hwhole : s1.buffer = s.buffer
        · rw [if_pos hwhole, hframe.rewind hwhole]
          refine describes_exchange hf hlive (Nat.le_of_eq hwhole) ?_ ?_
          · intro s2 hlive2
            exact ih s2 hlive2
          · intro r2 s2 hrefusal
            rw [if_neg hrefusal.1]
            rfl
        · rw [if_neg hwhole]
          refine run_bind_error (run_exchangeBuffer_torn ?_)
          rw [hf.fresh s hlive]
          exact Ne.symm hwhole
      · rw [if_neg hlimits, if_neg hlimits]
        exact ⟨s1, rfl, hlive1, rfl, Frame.refl s1⟩
    · intro _ r s1 _ hrefusal _
      rw [if_neg hrefusal.2.1]
      exact ⟨r, rfl, hrefusal⟩

theorem run_place (hf : Follows callback p abs Live Stopped) (fuel : Nat) (sc : Script)
    (htame : sc.Tame) : ∀ s, Live s →
      (sc.place p fuel (abs s)).Describes Live Stopped abs s
        ((sc.run fuel (some callback)).run s) := by
  induction sc with
  | done => exact fun s hlive => ⟨s, rfl, hlive, rfl, Frame.refl s⟩
  | write bytes =>
    intro s hlive
    rw [Script.place, hf.room s hlive, Script.run, run_encodePrimitive]
    by_cases hlt : s.room < bytes.length
    · rw [if_pos hlt, if_pos hlt]
      exact ⟨s, rfl, hlive, rfl, Frame.refl s⟩
    · rw [if_neg hlt, if_neg hlt]
      obtain ⟨hwlive, hwabs⟩ := hf.write s bytes hlive (Nat.not_lt.mp hlt)
      exact ⟨s.write bytes, rfl, hwlive, hwabs, Frame.write s bytes⟩
  | copy unit mem => exact run_placeCopy hf unit fuel mem
  | fail status bad => exact fun s hlive => ⟨s, rfl, hlive, rfl, Frame.refl s⟩
  | failAfter sc status bad ih =>
    intro s hlive
    refine (ih htame.tame s hlive).bind ?_ ?_
    · exact fun _ s1 _ hlive1 _ => ⟨s1, rfl, hlive1, rfl, Frame.refl s1⟩
    · intro hstopped
      obtain ⟨r, t, hended⟩ := place_of_calm p fuel htame (abs s)
      rw [hended] at hstopped
      cases hstopped
  | both a b iha ihb =>
    intro s hlive
    refine (iha htame.1 s hlive).bind ?_ ?_
    · intro r s1 _ hlive1 _
      have hb := ihb htame.2.1 s1 hlive1
      cases hplace : b.place p fuel (abs s1) with
      | ended r2 t =>
        rw [hplace] at hb
        obtain ⟨s2, hrun, hlive2, habs, hframe⟩ := hb
        exact ⟨s2, by rw [run_bind_of_ok hrun]; rfl, hlive2, habs, hframe⟩
      | stopped =>
        rw [hplace] at hb
        obtain ⟨r2, s2, hrun, hrefusal, hrest⟩ := hb
        refine ⟨r ||| r2, s2, by rw [run_bind_of_ok hrun]; rfl, ?_, hrest⟩
        rw [UInt32.or_comm]
        exact hrefusal.or r
      | torn | unfinished =>
        rw [hplace] at hb
        exact run_bind_error hb
    · intro hstopped r s1 _ hrefusal hnone
      have hquiet : b.Quiet := by
        refine htame.2.2.resolve_left fun hcalm => ?_
        obtain ⟨r', t, hended⟩ := place_of_calm p fuel hcalm (abs s)
        rw [hended] at hstopped
        cases hstopped
      obtain ⟨r2, hrun⟩ := run_quiet_unchanged fuel (some callback) b hquiet (room_of_none hnone)
      exact ⟨r ||| r2, by rw [run_bind_of_ok hrun]; rfl, hrefusal.or r2⟩
  | andThen a b iha ihb =>
    intro s hlive
    refine (iha htame.1 s hlive).bind ?_ ?_
    · intro r s1 _ hlive1 _
      by_cases hr : r = StatusCode.good
      · rw [if_pos hr, if_pos hr]
        exact ihb htame.2 s1 hlive1
      · rw [if_neg hr, if_neg hr]
        exact ⟨s1, rfl, hlive1, rfl, Frame.refl s1⟩
    · intro _ r s1 _ hrefusal _
      rw [if_neg hrefusal.1]
      exact ⟨r, rfl, hrefusal⟩
  | retry sc ih => exact run_placeRetry hf (ih htame) fuel

theorem run_placeMembers (hf : Follows callback p abs Live Stopped) (fuel : Nat) (ms : Members)
    {s : EncodeState H} (hlive : Live s) :
    ((membersScript ms).place p fuel (abs s)).Describes Live Stopped abs s
      ((encodeBinaryInternal fuel (some callback) ms).run s) := by
  rw [← run_membersScript]
  exact run_place hf fuel _ (tame_membersScript ms) s hlive

end Run

end FactoryThing.Encoding
