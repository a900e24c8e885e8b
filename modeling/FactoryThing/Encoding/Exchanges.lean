import FactoryThing.Encoding.Simulation
import FactoryThing.Lib.Runs

/-!
# The exchanges of an encoding

The encoder touches the handle of its callback and the buffer only by calling the callback. Whatever
it encodes and however it ends, its effect on the two is that of a run of exchanges.
-/

namespace FactoryThing.Encoding

open Stateful

variable {H : Type}

/-- One exchange: what the callback makes of its handle and of the buffer. -/
def exchangeStep (callback : ExchangeEncodeBuffer H) (s : H × Option Nat) (run : List UInt8) :
    Except Fault ((H × Option Nat) × StatusCode) :=
  match callback s.1 run s.2 with
  | .ok (retval, handle, encodeBuf) => .ok ((handle, encodeBuf), retval)
  | .error e => .error e

/-- The handle and the buffer are changed by exchanges. -/
def Exchanges (callback : ExchangeEncodeBuffer H) (s s' : EncodeState H) : Prop :=
  ∃ runs replies, Runs.run (exchangeStep callback) (s.handle, s.encodeBuf) runs =
    .ok ((s'.handle, s'.encodeBuf), replies)

variable {callback : ExchangeEncodeBuffer H}

theorem Exchanges.refl (s : EncodeState H) : Exchanges callback s s := ⟨[], [], rfl⟩

variable {s s' : EncodeState H} {r : StatusCode}

theorem Exchanges.trans {s'' : EncodeState H} (h : Exchanges callback s s')
    (h' : Exchanges callback s' s'') : Exchanges callback s s'' := by
  obtain ⟨runs, replies, hrun⟩ := h
  obtain ⟨runs', replies', hrun'⟩ := h'
  exact ⟨runs ++ runs', replies ++ replies', Runs.run_append hrun hrun'⟩

theorem exchanges_of_exchangeBuffer (h : (exchangeBuffer (some callback)).run s = .ok (r, s')) :
    Exchanges callback s s' := by
  obtain ⟨-, handle, encodeBuf, hcall, rfl⟩ := run_exchangeBuffer_some_ok.mp h
  refine ⟨[s.pos.before], [r], ?_⟩
  simp only [Runs.run, exchangeStep, hcall]
  rfl

theorem exchanges_of_copy {unit n : Nat} {mem : List UInt8}
    (h : (arrayEncodeBinaryOverlayable (some callback) unit n mem).run s = .ok (r, s')) :
    Exchanges callback s s' := by
  induction n generalizing mem s with
  | zero => exact (run_throw_ok.mp h).elim
  | succ n ih =>
    have hround := run_arrayEncodeBinaryOverlayable_succ_ok.mp h
    split at hround
    · obtain ⟨r1, s1, hx, hlast⟩ := hround
      have hwritten := exchanges_of_exchangeBuffer hx
      have hfirst : Exchanges callback s s1 := hwritten
      split at hlast
      · exact hfirst.trans (ih hlast)
      · obtain ⟨-, rfl⟩ := hlast
        exact hfirst
    · obtain ⟨-, rfl⟩ := hround
      exact .refl s

theorem exchanges_of_retry {f : EncodeM H StatusCode}
    (hbody : ∀ {s s' : EncodeState H} {r : StatusCode}, f.run s = .ok (r, s') →
    Exchanges callback s s')
    {n : Nat} (h : (encodeWithExchange (some callback) f n).run s = .ok (r, s')) :
    Exchanges callback s s' := by
  induction n generalizing s with
  | zero => exact (run_throw_ok.mp h).elim
  | succ n ih =>
    obtain ⟨r1, s1, hrun, hrest⟩ := run_encodeWithExchange_succ_ok.mp h
    have hfirst := hbody hrun
    split at hrest
    · obtain ⟨r2, s2, hx, hlast⟩ := hrest
      have hback := exchanges_of_exchangeBuffer hx
      have hsecond : Exchanges callback s1 s2 := hback
      split at hlast
      · exact (hfirst.trans hsecond).trans (ih hlast)
      · obtain ⟨-, rfl⟩ := hlast
        exact hfirst.trans hsecond
    · obtain ⟨-, rfl⟩ := hrest
      exact hfirst

theorem exchanges_of_run {fuel : Nat} (sc : Script)
    (h : (sc.run fuel (some callback)).run s = .ok (r, s')) : Exchanges callback s s' := by
  induction sc generalizing s s' r with
  | done =>
    obtain ⟨-, rfl⟩ := run_pure_ok.mp h
    exact .refl s'
  | write bytes =>
    rw [Script.run, run_encodePrimitive] at h
    split at h
    · obtain ⟨-, rfl⟩ : _ = r ∧ s = s' := by simpa using h
      exact .refl s
    · obtain ⟨-, rfl⟩ : _ = r ∧ s.write bytes = s' := by simpa using h
      exact .refl s
  | copy unit mem => exact exchanges_of_copy h
  | fail status bad =>
    obtain ⟨-, rfl⟩ := run_pure_ok.mp h
    exact .refl s'
  | failAfter sc status bad ih =>
    obtain ⟨r1, s1, hrun, hlast⟩ := run_bind_ok.mp h
    obtain ⟨-, rfl⟩ := run_pure_ok.mp hlast
    exact ih hrun
  | both a b iha ihb =>
    obtain ⟨r1, s1, ha, r2, hb, -⟩ := run_orStatus_ok.mp h
    exact (iha ha).trans (ihb hb)
  | andThen a b iha ihb =>
    obtain ⟨r1, s1, ha, hrest⟩ := run_bind_ok.mp h
    split at hrest
    · exact (iha ha).trans (ihb hrest)
    · obtain ⟨-, rfl⟩ := run_pure_ok.mp hrest
      exact iha ha
  | retry sc ih => exact exchanges_of_retry ih h

end FactoryThing.Encoding
