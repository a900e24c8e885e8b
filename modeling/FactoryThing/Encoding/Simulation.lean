import FactoryThing.Encoding.Layout

/-!
# The encoder lays out its value

A callback that exchanges the buffer follows a supply of buffers (`Follows`). With such a callback
the encoder returns exactly when the script of the value can be laid out from the state it starts
in: `lays_of_run` finds the layout of a run that returned, `run_of_lays` runs a script along its
layout. What keeps the two together is `Frame`: as long as the buffer is the same one, setting
`pos` back leaves the state as it was.
-/

namespace FactoryThing.Encoding

open Stateful

variable {H σ : Type}

/-- A status code that no later part can turn into success or into a reason to try again. -/
def Refusal (r : StatusCode) : Prop :=
  r ≠ StatusCode.good ∧ r ≠ StatusCode.badEncodingLimitsExceeded ∧
    r ||| StatusCode.badEncodingLimitsExceeded = r

def exchanged (s : EncodeState H) (handle : H) (encodeBuf : Option Nat) : EncodeState H :=
  { buffer := s.buffer + 1, encodeBuf, pos := ⟨s.buffer + 1, []⟩, handle }

/-- The callback exchanges buffers as the supply says, from every live state; a refusal leaves a
stopped one. -/
structure Follows (callback : ExchangeEncodeBuffer H) (p : Supply σ) (abs : EncodeState H → σ)
    (Live Stopped : EncodeState H → Prop) : Prop where
  fresh : ∀ s, Live s → s.pos.buffer = s.buffer
  serial : ∀ s, Live s → p.serial (abs s) = s.buffer
  room : ∀ s, Live s → p.room (abs s) = s.room
  write : ∀ s bytes, Live s → bytes.length ≤ s.room →
    Live (s.write bytes) ∧ abs (s.write bytes) = p.write (abs s) bytes.length
  next : ∀ s t, Live s → p.next (abs s) = some t → ∃ handle encodeBuf,
    callback s.handle s.pos.before s.encodeBuf = .ok (StatusCode.good, handle, encodeBuf) ∧
      Live (exchanged s handle encodeBuf) ∧ abs (exchanged s handle encodeBuf) = t
  refuse : ∀ s, Live s → p.next (abs s) = none → ∃ r handle,
    callback s.handle s.pos.before s.encodeBuf = .ok (r, handle, none) ∧ Refusal r ∧
      Stopped (exchanged s handle none)

/-- Either only bytes were written, or the buffer is another one. -/
def Frame (s s' : EncodeState H) : Prop :=
  (∃ bytes, s' = s.write bytes) ∨ s.buffer < s'.buffer

/-- How the run of a script ends, by the outcome of its layout. -/
def Ends (Live Stopped : EncodeState H → Prop) (abs : EncodeState H → σ) (s s' : EncodeState H)
    (r : StatusCode) : Outcome σ → Prop
  | .fits t => r = StatusCode.good ∧ Live s' ∧ abs s' = t ∧ Frame s s'
  | .cut t => r = StatusCode.badEncodingLimitsExceeded ∧ Live s' ∧ abs s' = t ∧ Frame s s'
  | .stopped => Refusal r ∧ Stopped s' ∧ s'.encodeBuf = none ∧ s.buffer < s'.buffer

namespace Frame

theorem refl (s : EncodeState H) : Frame s s := Or.inl ⟨[], by simp⟩

theorem write (s : EncodeState H) (bytes : List UInt8) : Frame s (s.write bytes) :=
  Or.inl ⟨bytes, rfl⟩

variable {s s' : EncodeState H}

theorem of_lt (h : s.buffer < s'.buffer) : Frame s s' := Or.inr h

theorem le (h : Frame s s') : s.buffer ≤ s'.buffer := by
  obtain ⟨bytes, rfl⟩ | h := h
  · exact Nat.le_refl _
  · exact Nat.le_of_lt h

theorem trans {s'' : EncodeState H} (h : Frame s s') (h' : Frame s' s'') : Frame s s'' := by
  obtain ⟨bytes, rfl⟩ | hlt := h
  · obtain ⟨bytes', rfl⟩ | hlt' := h'
    · exact Or.inl ⟨bytes ++ bytes', EncodeState.write_write s bytes bytes'⟩
    · exact Or.inr hlt'
  · exact Or.inr (Nat.lt_of_lt_of_le hlt h'.le)

theorem exchanged (h : Frame s s') (handle : H) (encodeBuf : Option Nat) :
    Frame s (exchanged s' handle encodeBuf) :=
  Or.inr (Nat.lt_succ_of_le h.le)

theorem rewind (h : Frame s s') (hbuffer : s'.buffer = s.buffer) :
    { s' with pos := s.pos } = s := by
  obtain ⟨bytes, rfl⟩ | hlt := h
  · rfl
  · omega

end Frame

theorem run_exchangeBuffer_some_ok {callback : ExchangeEncodeBuffer H} {s s' : EncodeState H}
    {r : StatusCode} :
    (exchangeBuffer (some callback)).run s = .ok (r, s') ↔ s.pos.buffer = s.buffer ∧
      ∃ handle encodeBuf, callback s.handle s.pos.before s.encodeBuf = .ok (r, handle, encodeBuf) ∧
        s' = exchanged s handle encodeBuf := by
  simp only [exchangeBuffer, run_bind_ok, run_get_ok, run_ite_ok, run_throw_ok, and_assoc,
    exists_eq_left, ne_eq, ite_not, run_set_ok, run_pure_ok]
  by_cases hfresh : s.pos.buffer = s.buffer
  · cases hcall : callback s.handle s.pos.before s.encodeBuf with
    | error e => simp [hfresh, hcall, exchanged, Functor.map, Except.map]
    | ok res =>
      obtain ⟨r1, handle, encodeBuf⟩ := res
      simp [hfresh, hcall, exchanged, Functor.map, Except.map]
      grind
  · simp [hfresh]

theorem Refusal.or_limits_left {r : StatusCode} (h : Refusal r) :
    StatusCode.badEncodingLimitsExceeded ||| r = r := by
  rw [UInt32.or_comm]
  exact h.2.2

theorem good_or (r : StatusCode) : StatusCode.good ||| r = r := UInt32.zero_or

theorem or_good (r : StatusCode) : r ||| StatusCode.good = r := UInt32.or_zero

theorem limits_or_limits :
    StatusCode.badEncodingLimitsExceeded ||| StatusCode.badEncodingLimitsExceeded =
      StatusCode.badEncodingLimitsExceeded := by decide

theorem room_of_none {s : EncodeState H} (h : s.encodeBuf = none) : s.room = 0 := by
  simp [EncodeState.room, h]

theorem run_quiet (fuel : Nat) (callback : Option (ExchangeEncodeBuffer H)) (sc : Script)
    (hfree : sc.FailFree) (hquiet : sc.Quiet) {s : EncodeState H} (hroom : s.room = 0) :
    (sc.run fuel callback).run s = .ok (StatusCode.good, s) ∨
      (sc.run fuel callback).run s = .ok (StatusCode.badEncodingLimitsExceeded, s) := by
  induction sc with
  | done => exact Or.inl rfl
  | write bytes =>
    cases bytes with
    | nil =>
      left
      rw [Script.run, run_encodePrimitive]
      simp
    | cons b bs =>
      right
      rw [Script.run, run_encodePrimitive]
      simp [hroom]
  | copy unit mem => exact hquiet.elim
  | fail status bad => exact hfree.elim
  | failAfter sc status bad ih => exact hfree.elim
  | both a b iha ihb =>
    obtain ha | ha := iha hfree.1 hquiet.1
    · obtain hb | hb := ihb hfree.2 hquiet.2
      · exact Or.inl (run_orStatus_ok.mpr ⟨_, _, ha, _, hb, (good_or _).symm⟩)
      · exact Or.inr (run_orStatus_ok.mpr ⟨_, _, ha, _, hb, (good_or _).symm⟩)
    · obtain hb | hb := ihb hfree.2 hquiet.2
      · exact Or.inr (run_orStatus_ok.mpr ⟨_, _, ha, _, hb, (or_good _).symm⟩)
      · exact Or.inr (run_orStatus_ok.mpr ⟨_, _, ha, _, hb, limits_or_limits.symm⟩)
  | andThen a b iha ihb =>
    cases a with
    | write bytes =>
      right
      have ha : ((Script.write bytes).run fuel callback).run s =
          .ok (StatusCode.badEncodingLimitsExceeded, s) := by
        rw [Script.run, run_encodePrimitive, if_pos]
        rw [hroom]
        exact hquiet
      refine run_bind_ok.mpr ⟨_, _, ha, ?_⟩
      rfl
    | _ => exact hquiet.elim
  | retry sc ih => exact hquiet.elim

section Simulation

variable {callback : ExchangeEncodeBuffer H} {p : Supply σ} {abs : EncodeState H → σ}
  {Live Stopped : EncodeState H → Prop}

variable {out : Outcome σ} {r : StatusCode} {s s' : EncodeState H} {sc : Script} {t0 : σ}
  {a : Script}

theorem Ends.of_frame {s1 : EncodeState H} (hframe : Frame s s1)
    (h : Ends Live Stopped abs s1 s' r out) : Ends Live Stopped abs s s' r out := by
  cases out with
  | fits t => exact ⟨h.1, h.2.1, h.2.2.1, hframe.trans h.2.2.2⟩
  | cut t => exact ⟨h.1, h.2.1, h.2.2.1, hframe.trans h.2.2.2⟩
  | stopped => exact ⟨h.1, h.2.1, h.2.2.1, Nat.lt_of_le_of_lt hframe.le h.2.2.2⟩

theorem Ends.afterCut (h : Ends Live Stopped abs s s' r out) :
    Ends Live Stopped abs s s' (StatusCode.badEncodingLimitsExceeded ||| r) out.afterCut := by
  cases out with
  | fits t =>
    obtain ⟨rfl, hrest⟩ := h
    exact ⟨or_good _, hrest⟩
  | cut t =>
    obtain ⟨rfl, hrest⟩ := h
    exact ⟨limits_or_limits, hrest⟩
  | stopped =>
    obtain ⟨hr, hrest⟩ := h
    exact ⟨by rwa [hr.or_limits_left], hrest⟩

theorem length_take_possible {mem : List UInt8} {room : Nat} (unit : Nat) (h : room < mem.length) :
    (mem.take (room / unit * unit)).length = room / unit * unit := by
  have hle : room / unit * unit ≤ room := Nat.div_mul_le_self room unit
  rw [List.length_take]
  omega

theorem lays_of_copy (hf : Follows callback p abs Live Stopped) {unit n : Nat} {mem : List UInt8}
    (hlive : Live s)
    (h : (arrayEncodeBinaryOverlayable (some callback) unit n mem).run s = .ok (r, s')) :
    ∃ out, LaysOut p (.copy unit mem) (abs s) out ∧ Ends Live Stopped abs s s' r out := by
  induction n generalizing mem s with
  | zero => exact (run_throw_ok.mp h).elim
  | succ n ih =>
    have hround := run_arrayEncodeBinaryOverlayable_succ_ok.mp h
    have hroom := hf.room s hlive
    split at hround
    · next hlt =>
      obtain ⟨r1, s1, hx, hlast⟩ := hround
      have hlen := length_take_possible unit hlt
      obtain ⟨hwlive, hwabs⟩ := hf.write s (mem.take (s.room / unit * unit)) hlive
        (by rw [hlen]; exact Nat.div_mul_le_self _ _)
      obtain ⟨-, handle, encodeBuf, hcall, rfl⟩ := run_exchangeBuffer_some_ok.mp hx
      rw [hlen] at hwabs
      cases hnext : p.next (abs (s.write (mem.take (s.room / unit * unit)))) with
      | some t =>
        obtain ⟨handle', encodeBuf', hcall', hlive', habs'⟩ := hf.next _ t hwlive hnext
        rw [hcall'] at hcall
        obtain ⟨rfl, rfl, rfl⟩ : StatusCode.good = r1 ∧ handle' = handle ∧
          encodeBuf' = encodeBuf := by
          simpa using hcall
        obtain ⟨out, hlays, hends⟩ := ih hlive' hlast
        rw [habs'] at hlays
        rw [hwabs] at hnext
        refine ⟨out, .copyNext (t := t) ?_ ?_ ?_,
          hends.of_frame ((Frame.write s _).exchanged handle' encodeBuf')⟩
        · rwa [hroom]
        · rwa [hroom]
        · rwa [hroom]
      | none =>
        obtain ⟨r', handle', hcall', hrefusal, hstopped⟩ := hf.refuse _ hwlive hnext
        rw [hcall'] at hcall
        obtain ⟨rfl, rfl, rfl⟩ : r' = r1 ∧ handle' = handle ∧ none = encodeBuf := by
          simpa using hcall
        rw [if_neg hrefusal.1] at hlast
        obtain ⟨rfl, rfl⟩ := hlast
        rw [hwabs] at hnext
        refine ⟨.stopped, .copyStop ?_ ?_, hrefusal, hstopped, rfl, Nat.lt_succ_self _⟩
        · rwa [hroom]
        · rwa [hroom]
    · next hle =>
      obtain ⟨rfl, rfl⟩ := hround
      obtain ⟨hwlive, hwabs⟩ := hf.write s mem hlive (by omega)
      exact ⟨_, .copy (by omega), rfl, hwlive, hwabs, Frame.write s mem⟩

theorem lays_of_retry (hf : Follows callback p abs Live Stopped) {f : EncodeM H StatusCode}
    (hbody : ∀ {s s' : EncodeState H} {r : StatusCode}, Live s → f.run s = .ok (r, s') →
    ∃ out, LaysOut p sc (abs s) out ∧ Ends Live Stopped abs s s' r out)
    {n : Nat} (hlive : Live s) (h : (encodeWithExchange (some callback) f n).run s = .ok (r, s')) :
    ∃ out, LaysOut p (.retry sc) (abs s) out ∧ Ends Live Stopped abs s s' r out := by
  induction n generalizing s with
  | zero => exact (run_throw_ok.mp h).elim
  | succ n ih =>
    obtain ⟨r1, s1, hrun, hrest⟩ := run_encodeWithExchange_succ_ok.mp h
    obtain ⟨out, hlays, hends⟩ := hbody hlive hrun
    cases out with
    | fits t =>
      obtain ⟨rfl, hrest'⟩ := hends
      obtain ⟨rfl, rfl⟩ := hrest
      exact ⟨_, .retry hlays, rfl, hrest'⟩
    | stopped =>
      rw [if_neg hends.1.2.1] at hrest
      obtain ⟨rfl, rfl⟩ := hrest
      exact ⟨_, .retryStop hlays, hends⟩
    | cut t =>
      obtain ⟨rfl, hlive1, rfl, hframe⟩ := hends
      obtain ⟨r2, s2, hx, hlast⟩ := hrest
      obtain ⟨hpos, handle, encodeBuf, hcall, rfl⟩ := run_exchangeBuffer_some_ok.mp hx
      -- the exchange is defined only when `pos` was set back within the current buffer
      have hbuffer : s1.buffer = s.buffer := hpos.symm.trans (hf.fresh s hlive)
      have hwhole : p.serial (abs s1) = p.serial (abs s) := by
        rw [hf.serial s1 hlive1, hf.serial s hlive, hbuffer]
      rw [hframe.rewind hbuffer] at hcall hlast
      cases hnext : p.next (abs s) with
      | some u =>
        obtain ⟨handle', encodeBuf', hcall', hlive', habs'⟩ := hf.next s u hlive hnext
        rw [hcall'] at hcall
        obtain ⟨rfl, rfl, rfl⟩ : StatusCode.good = r2 ∧ handle' = handle ∧
          encodeBuf' = encodeBuf := by
          simpa using hcall
        obtain ⟨out, hlays', hends'⟩ := ih hlive' hlast
        rw [habs'] at hlays'
        exact ⟨out, .retryNext hlays hwhole hnext hlays',
          hends'.of_frame ((Frame.refl s).exchanged handle' encodeBuf')⟩
      | none =>
        obtain ⟨r', handle', hcall', hrefusal, hstopped⟩ := hf.refuse s hlive hnext
        rw [hcall'] at hcall
        obtain ⟨rfl, rfl, rfl⟩ : r' = r2 ∧ handle' = handle ∧ none = encodeBuf := by
          simpa using hcall
        rw [if_neg hrefusal.1] at hlast
        obtain ⟨rfl, rfl⟩ := hlast
        exact ⟨.stopped, .retryRefused hlays hwhole hnext, hrefusal, hstopped, rfl,
          Nat.lt_succ_self _⟩

theorem lays_of_run (hf : Follows callback p abs Live Stopped) {fuel : Nat} (sc : Script)
    (hfree : sc.FailFree) (htame : sc.Tame) (hlive : Live s)
    (h : (sc.run fuel (some callback)).run s = .ok (r, s')) :
    ∃ out, LaysOut p sc (abs s) out ∧ Ends Live Stopped abs s s' r out := by
  induction sc generalizing s s' r with
  | done =>
    obtain ⟨rfl, rfl⟩ := run_pure_ok.mp h
    exact ⟨_, .done, rfl, hlive, rfl, Frame.refl s'⟩
  | write bytes =>
    have hroom := hf.room s hlive
    rw [Script.run, run_encodePrimitive] at h
    split at h
    · next hgt =>
      obtain ⟨rfl, rfl⟩ : _ = r ∧ s = s' := by simpa using h
      exact ⟨_, .writeCut (by omega), rfl, hlive, rfl, Frame.refl s⟩
    · next hle =>
      obtain ⟨rfl, rfl⟩ : _ = r ∧ s.write bytes = s' := by simpa using h
      obtain ⟨hwlive, hwabs⟩ := hf.write s bytes hlive (by omega)
      exact ⟨_, .write (by omega), rfl, hwlive, hwabs, Frame.write s bytes⟩
  | copy unit mem => exact lays_of_copy hf hlive h
  | fail status bad => exact hfree.elim
  | failAfter sc status bad ih => exact hfree.elim
  | both a b iha ihb =>
    obtain ⟨r1, s1, ha, r2, hb, rfl⟩ := run_orStatus_ok.mp h
    obtain ⟨out1, hlays1, hends1⟩ := iha hfree.1 htame.1 hlive ha
    cases out1 with
    | fits t =>
      obtain ⟨rfl, hlive1, rfl, hframe⟩ := hends1
      obtain ⟨out2, hlays2, hends2⟩ := ihb hfree.2 htame.2.1 hlive1 hb
      rw [good_or]
      exact ⟨out2, .both hlays1 hlays2, hends2.of_frame hframe⟩
    | cut t =>
      obtain ⟨rfl, hlive1, rfl, hframe⟩ := hends1
      obtain ⟨out2, hlays2, hends2⟩ := ihb hfree.2 htame.2.1 hlive1 hb
      exact ⟨_, .bothCut hlays1 hlays2, (hends2.of_frame hframe).afterCut⟩
    | stopped =>
      obtain ⟨hrefusal, hstopped, hnone, hlt⟩ := hends1
      have hquiet : b.Quiet :=
        htame.2.2.resolve_left fun hcalm => not_stopped_of_calm hcalm hlays1 rfl
      obtain hb' | hb' := run_quiet fuel (some callback) b hfree.2 hquiet
        (room_of_none hnone)
      · obtain ⟨rfl, rfl⟩ : StatusCode.good = r2 ∧ s1 = s' := by simpa [hb] using hb'.symm
        exact ⟨_, .bothStop hlays1, (or_good r1).symm ▸ hrefusal, hstopped, hnone, hlt⟩
      · obtain ⟨rfl, rfl⟩ : StatusCode.badEncodingLimitsExceeded = r2 ∧ s1 = s' := by
          simpa [hb] using hb'.symm
        exact ⟨_, .bothStop hlays1, hrefusal.2.2.symm ▸ hrefusal, hstopped, hnone, hlt⟩
  | andThen a b iha ihb =>
    obtain ⟨r1, s1, ha, hrest⟩ := run_bind_ok.mp h
    obtain ⟨out1, hlays1, hends1⟩ := iha hfree.1 htame.1 hlive ha
    cases out1 with
    | fits t =>
      obtain ⟨rfl, hlive1, rfl, hframe⟩ := hends1
      obtain ⟨out2, hlays2, hends2⟩ := ihb hfree.2 htame.2 hlive1 hrest
      exact ⟨out2, .andThen hlays1 hlays2, hends2.of_frame hframe⟩
    | cut t =>
      obtain ⟨rfl, hends1⟩ := hends1
      obtain ⟨rfl, rfl⟩ := run_pure_ok.mp hrest
      exact ⟨_, .andThenCut hlays1, rfl, hends1⟩
    | stopped =>
      rw [if_neg hends1.1.1] at hrest
      obtain ⟨rfl, rfl⟩ := run_pure_ok.mp hrest
      exact ⟨_, .andThenStop hlays1, hends1⟩
  | retry sc ih => exact lays_of_retry hf (ih hfree htame) hlive h

/-- `run` with a bound `n` of its own for the outermost loop. -/
def Script.runFor (callback : Option (ExchangeEncodeBuffer H)) (fuel n : Nat) :
    Script → EncodeM H StatusCode
  | copy unit mem => arrayEncodeBinaryOverlayable callback unit n mem
  | retry a => encodeWithExchange callback (a.run fuel callback) n
  | sc => sc.run fuel callback

theorem Script.runFor_self (callback : Option (ExchangeEncodeBuffer H)) (fuel : Nat)
    (sc : Script) : sc.runFor callback fuel fuel = sc.run fuel callback := by
  cases sc with
  | copy unit mem => rfl
  | retry a => rfl
  | _ => rfl

theorem run_exchange_next (hf : Follows callback p abs Live Stopped) {t : σ} (hlive : Live s)
    (hnext : p.next (abs s) = some t) : ∃ s',
    (exchangeBuffer (some callback)).run s = .ok (StatusCode.good, s') ∧ Live s' ∧ abs s' = t ∧
      s.buffer < s'.buffer := by
  obtain ⟨handle, encodeBuf, hcall, hlive', habs'⟩ := hf.next s t hlive hnext
  exact ⟨_, run_exchangeBuffer_some_ok.mpr ⟨hf.fresh s hlive, handle, encodeBuf, hcall, rfl⟩,
    hlive', habs', Nat.lt_succ_self _⟩

theorem run_exchange_refuse (hf : Follows callback p abs Live Stopped) (hlive : Live s)
    (hnext : p.next (abs s) = none) : ∃ r s',
    (exchangeBuffer (some callback)).run s = .ok (r, s') ∧ Refusal r ∧ Stopped s' ∧
      s'.encodeBuf = none ∧ s.buffer < s'.buffer := by
  obtain ⟨r, handle, hcall, hrefusal, hstopped⟩ := hf.refuse s hlive hnext
  exact ⟨r, _, run_exchangeBuffer_some_ok.mpr ⟨hf.fresh s hlive, handle, none, hcall, rfl⟩,
    hrefusal, hstopped, rfl, Nat.lt_succ_self _⟩

/-- From every live state over `t0` the script ends as `out` says, given enough repetitions. -/
def Runs (callback : ExchangeEncodeBuffer H) (abs : EncodeState H → σ)
    (Live Stopped : EncodeState H → Prop) (sc : Script) (t0 : σ) (out : Outcome σ) : Prop :=
  ∃ bound, ∀ fuel n, bound ≤ fuel → bound ≤ n → ∀ s, Live s → abs s = t0 →
    ∃ r s', (sc.runFor (some callback) fuel n).run s = .ok (r, s') ∧
      Ends Live Stopped abs s s' r out

theorem Runs.exists_bound (h : Runs callback abs Live Stopped sc t0 out) :
    ∃ bound, ∀ fuel, bound ≤ fuel → ∀ s, Live s →
      abs s = t0 → ∃ r s', (sc.run fuel (some callback)).run s = .ok (r, s') ∧
        Ends Live Stopped abs s s' r out := by
  obtain ⟨bound, hbound⟩ := h
  refine ⟨bound, fun fuel hfuel s hlive habs => ?_⟩
  rw [← Script.runFor_self]
  exact hbound fuel fuel hfuel hfuel s hlive habs

theorem Runs.both {a b : Script} {t0 t : σ} {out out' : Outcome σ} {r1 : StatusCode}
    (ha : Runs callback abs Live Stopped a t0 out) (hb : Runs callback abs Live Stopped b t out')
    (hmid : ∀ s s1 r, Ends Live Stopped abs s s1 r out →
      r = r1 ∧ Live s1 ∧ abs s1 = t ∧ Frame s s1) {out'' : Outcome σ}
    (hend : ∀ s s' r, Ends Live Stopped abs s s' r out' →
    Ends Live Stopped abs s s' (r1 ||| r) out'') :
    Runs callback abs Live Stopped (.both a b) t0 out'' := by
  obtain ⟨bound1, hbound1⟩ := ha.exists_bound
  obtain ⟨bound2, hbound2⟩ := hb.exists_bound
  refine ⟨max bound1 bound2, fun fuel n hfuel _ s hlive habs => ?_⟩
  obtain ⟨r, s1, hrun1, hends1⟩ := hbound1 fuel (by omega) s hlive habs
  obtain ⟨rfl, hlive1, habs1, hframe⟩ := hmid s s1 r hends1
  obtain ⟨r2, s', hrun2, hends2⟩ := hbound2 fuel (by omega) s1 hlive1 habs1
  exact ⟨_, s', run_orStatus_ok.mpr ⟨r, s1, hrun1, r2, hrun2, rfl⟩,
    (hend s1 s' r2 hends2).of_frame hframe⟩

theorem Runs.andThen_left {b : Script} (ha : Runs callback abs Live Stopped a t0 out)
    (hbad : ∀ s s' r, Ends Live Stopped abs s s' r out → r ≠ StatusCode.good) :
    Runs callback abs Live Stopped (.andThen a b) t0 out := by
  obtain ⟨bound, hbound⟩ := ha.exists_bound
  refine ⟨bound, fun fuel n hfuel _ s hlive habs => ?_⟩
  obtain ⟨r, s1, hrun, hends⟩ := hbound fuel hfuel s hlive habs
  refine ⟨r, s1, run_bind_ok.mpr ⟨r, s1, hrun, ?_⟩, hends⟩
  rw [if_neg (hbad s s1 r hends)]
  rfl

theorem Runs.retry_once {a : Script} {t0 : σ} {out : Outcome σ}
    (ha : Runs callback abs Live Stopped a t0 out)
    (hdone : ∀ s s' r, Ends Live Stopped abs s s' r out →
    r ≠ StatusCode.badEncodingLimitsExceeded) :
    Runs callback abs Live Stopped (.retry a) t0 out := by
  obtain ⟨bound, hbound⟩ := ha.exists_bound
  refine ⟨bound + 1, fun fuel n hfuel hn s hlive habs => ?_⟩
  obtain ⟨m, rfl⟩ := Nat.exists_eq_add_of_le' (Nat.le_of_add_left_le hn)
  obtain ⟨r, s1, hrun, hends⟩ := hbound fuel (by omega) s hlive habs
  refine ⟨r, s1, run_encodeWithExchange_succ_ok.mpr ⟨r, s1, hrun, ?_⟩, hends⟩
  rw [if_neg (hdone s s1 r hends)]
  exact ⟨rfl, rfl⟩

theorem run_of_lays (hf : Follows callback p abs Live Stopped) (h : LaysOut p sc t0 out)
    (hfree : sc.FailFree) (htame : sc.Tame) : Runs callback abs Live Stopped sc t0 out := by
  induction h with
  | done =>
    refine ⟨0, fun fuel n _ _ s hlive habs => ?_⟩
    exact ⟨_, s, rfl, rfl, hlive, habs, Frame.refl s⟩
  | @write bytes t h =>
    refine ⟨0, fun fuel n _ _ s hlive habs => ?_⟩
    subst habs
    rw [hf.room s hlive] at h
    obtain ⟨hwlive, hwabs⟩ := hf.write s bytes hlive h
    refine ⟨StatusCode.good, s.write bytes, ?_, rfl, hwlive, hwabs, Frame.write s bytes⟩
    exact run_encodePrimitive bytes s ▸ by rw [if_neg (by omega)]
  | @writeCut bytes t h =>
    refine ⟨0, fun fuel n _ _ s hlive habs => ?_⟩
    subst habs
    rw [hf.room s hlive] at h
    refine ⟨_, s, ?_, rfl, hlive, rfl, Frame.refl s⟩
    exact run_encodePrimitive bytes s ▸ by rw [if_pos h]
  | @copy unit mem t h =>
    refine ⟨1, fun fuel n _ hn s hlive habs => ?_⟩
    subst habs
    rw [hf.room s hlive] at h
    obtain ⟨hwlive, hwabs⟩ := hf.write s mem hlive h
    obtain ⟨m, rfl⟩ := Nat.exists_eq_add_of_le' hn
    refine ⟨StatusCode.good, s.write mem, ?_, rfl, hwlive, hwabs, Frame.write s mem⟩
    refine run_arrayEncodeBinaryOverlayable_succ_ok.mpr ?_
    rw [if_neg (by omega)]
    exact ⟨rfl, rfl⟩
  | @copyNext unit mem t u out h hnext hrest ih =>
    obtain ⟨bound, hbound⟩ := ih hfree htame
    refine ⟨bound + 1, fun fuel n hfuel hn s hlive habs => ?_⟩
    subst habs
    rw [hf.room s hlive] at h hnext hbound
    have hlen := length_take_possible unit h
    obtain ⟨hwlive, hwabs⟩ := hf.write s (mem.take (s.room / unit * unit)) hlive
      (by rw [hlen]; exact Nat.div_mul_le_self _ _)
    rw [hlen] at hwabs
    obtain ⟨s1, hx, hlive1, habs1, hlt⟩ := run_exchange_next hf hwlive (hwabs ▸ hnext)
    obtain ⟨m, rfl⟩ := Nat.exists_eq_add_of_le' (Nat.le_of_add_left_le hn)
    obtain ⟨r, s', hrun, hends⟩ := hbound fuel m (by omega) (by omega) s1 hlive1 habs1
    refine ⟨r, s', run_arrayEncodeBinaryOverlayable_succ_ok.mpr ?_, hends.of_frame (.of_lt hlt)⟩
    rw [if_pos h]
    exact ⟨_, s1, hx, by rwa [if_pos rfl]⟩
  | @copyStop unit mem t h hnext =>
    refine ⟨1, fun fuel n _ hn s hlive habs => ?_⟩
    subst habs
    rw [hf.room s hlive] at h hnext
    have hlen := length_take_possible unit h
    obtain ⟨hwlive, hwabs⟩ := hf.write s (mem.take (s.room / unit * unit)) hlive
      (by rw [hlen]; exact Nat.div_mul_le_self _ _)
    rw [hlen] at hwabs
    obtain ⟨r, s1, hx, hrefusal, hstopped, hnone, hlt⟩ :=
      run_exchange_refuse hf hwlive (hwabs ▸ hnext)
    obtain ⟨m, rfl⟩ := Nat.exists_eq_add_of_le' hn
    refine ⟨r, s1, run_arrayEncodeBinaryOverlayable_succ_ok.mpr ?_, hrefusal, hstopped, hnone, hlt⟩
    rw [if_pos h]
    exact ⟨r, s1, hx, by rw [if_neg hrefusal.1]; exact ⟨rfl, rfl⟩⟩
  | both ha hb iha ihb =>
    refine (iha hfree.1 htame.1).both (ihb hfree.2 htame.2.1) (fun s s1 r h => h) ?_
    intro s s' r h
    rwa [good_or]
  | bothCut ha hb iha ihb =>
    refine (iha hfree.1 htame.1).both (ihb hfree.2 htame.2.1) (fun s s1 r h => h) ?_
    intro s s' r h
    exact h.afterCut
  | @bothStop a b t ha iha =>
    obtain ⟨bound, hbound⟩ := (iha hfree.1 htame.1).exists_bound
    refine ⟨bound, fun fuel n hfuel _ s hlive habs => ?_⟩
    obtain ⟨r, s1, hrun, hrefusal, hstopped, hnone, hlt⟩ := hbound fuel hfuel s hlive habs
    have hquiet : b.Quiet := htame.2.2.resolve_left fun hcalm => not_stopped_of_calm hcalm ha rfl
    obtain hb | hb := run_quiet fuel (some callback) b hfree.2 hquiet
      (room_of_none hnone)
    · exact ⟨_, s1, run_orStatus_ok.mpr ⟨r, s1, hrun, _, hb, (or_good r).symm⟩, hrefusal,
        hstopped, hnone, hlt⟩
    · exact ⟨_, s1, run_orStatus_ok.mpr ⟨r, s1, hrun, _, hb, hrefusal.2.2.symm⟩, hrefusal,
        hstopped, hnone, hlt⟩
  | andThen ha hb iha ihb =>
    obtain ⟨bound1, hbound1⟩ := (iha hfree.1 htame.1).exists_bound
    obtain ⟨bound2, hbound2⟩ := (ihb hfree.2 htame.2).exists_bound
    refine ⟨max bound1 bound2, fun fuel n hfuel _ s hlive habs => ?_⟩
    obtain ⟨r, s1, hrun1, rfl, hlive1, habs1, hframe⟩ := hbound1 fuel (by omega) s hlive habs
    obtain ⟨r2, s', hrun2, hends2⟩ := hbound2 fuel (by omega) s1 hlive1 habs1
    refine ⟨r2, s', run_bind_ok.mpr ⟨_, s1, hrun1, ?_⟩, hends2.of_frame hframe⟩
    rwa [if_pos rfl]
  | andThenCut ha iha =>
    apply (iha hfree.1 htame.1).andThen_left
    intro s s' r h
    rw [h.1]
    decide
  | andThenStop ha iha =>
    apply (iha hfree.1 htame.1).andThen_left
    intro s s' r h
    exact h.1.1
  | retry h ih =>
    apply (ih hfree htame).retry_once
    intro s s' r h
    rw [h.1]
    decide
  | retryStop h ih =>
    apply (ih hfree htame).retry_once
    intro s s' r h
    exact h.1.2.1
  | @retryNext a t0 t u out h hwhole hnext hrest ih ihrest =>
    obtain ⟨bound1, hbound1⟩ := (ih hfree htame).exists_bound
    obtain ⟨bound2, hbound2⟩ := ihrest hfree htame
    refine ⟨max bound1 bound2 + 1, fun fuel n hfuel hn s hlive habs => ?_⟩
    subst habs
    obtain ⟨m, rfl⟩ := Nat.exists_eq_add_of_le' (Nat.le_of_add_left_le hn)
    obtain ⟨r1, s1, hrun1, rfl, hlive1, rfl, hframe⟩ := hbound1 fuel (by omega) s hlive rfl
    rw [hf.serial s1 hlive1, hf.serial s hlive] at hwhole
    obtain ⟨s2, hx, hlive2, habs2, hlt⟩ := run_exchange_next hf hlive hnext
    obtain ⟨r, s', hrun, hends⟩ := hbound2 fuel m (by omega) (by omega) s2 hlive2 habs2
    refine ⟨r, s', run_encodeWithExchange_succ_ok.mpr ⟨_, s1, hrun1, ?_⟩,
      hends.of_frame (.of_lt hlt)⟩
    rw [if_pos rfl, hframe.rewind hwhole]
    exact ⟨_, s2, hx, by rwa [if_pos rfl]⟩
  | @retryRefused a t0 t h hwhole hnext ih =>
    obtain ⟨bound, hbound⟩ := (ih hfree htame).exists_bound
    refine ⟨bound + 1, fun fuel n hfuel hn s hlive habs => ?_⟩
    subst habs
    obtain ⟨m, rfl⟩ := Nat.exists_eq_add_of_le' (Nat.le_of_add_left_le hn)
    obtain ⟨r1, s1, hrun1, rfl, hlive1, rfl, hframe⟩ := hbound fuel (by omega) s hlive rfl
    rw [hf.serial s1 hlive1, hf.serial s hlive] at hwhole
    obtain ⟨r, s2, hx, hrefusal, hstopped, hnone, hlt⟩ := run_exchange_refuse hf hlive hnext
    refine ⟨r, s2, run_encodeWithExchange_succ_ok.mpr ⟨_, s1, hrun1, ?_⟩, hrefusal, hstopped,
      hnone, hlt⟩
    rw [if_pos rfl, hframe.rewind hwhole]
    exact ⟨r, s2, hx, by rw [if_neg hrefusal.1]; exact ⟨rfl, rfl⟩⟩

end Simulation

end FactoryThing.Encoding
