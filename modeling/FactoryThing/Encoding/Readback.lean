import FactoryThing.Encoding.AnnouncedSize
import FactoryThing.Encoding.DecodeSafety

/-!
# Reading an encoding back

`Reads n d bs Q`: in front of the bytes `bs` and at least `n` more, `d` consumes just `bs` and
returns what `Q` asks for. The rule for two functions in sequence puts their bytes together; with
it, every decoding function reads the bytes that its encoding function writes. Allocations are
assumed to succeed here.
-/

namespace FactoryThing.Encoding

open Stateful

/-- The decoder is in front of the bytes `bs`, and they are all there is. -/
structure DecodeState.At (s : DecodeState) (bs : List UInt8) : Prop where
  start_le : s.start ≤ s.pos
  pos_le : s.pos ≤ s.src.length
  drop_eq : s.src.drop s.pos = bs

namespace DecodeState

variable {s : DecodeState} {bs rest : List UInt8}

theorem At.length_eq (h : s.At bs) : s.src.length = s.pos + bs.length := by
  have hlen := congrArg List.length h.drop_eq
  have hpos := h.pos_le
  rw [List.length_drop] at hlen
  omega

theorem At.le (h : s.At (bs ++ rest)) : s.pos + bs.length ≤ s.src.length := by
  rw [h.length_eq, List.length_append]
  omega

theorem At.take_eq (h : s.At (bs ++ rest)) : (s.src.drop s.pos).take bs.length = bs := by
  rw [h.drop_eq, List.take_left]

theorem At.forward (h : s.At (bs ++ rest)) : At { s with pos := s.pos + bs.length } rest := by
  refine ⟨Nat.le_add_right_of_le h.start_le, h.le, ?_⟩
  rw [← List.drop_drop, h.drop_eq, List.drop_left]

end DecodeState

open DecodeState

variable {α β : Type} {m n : Nat} {bs bs' : List UInt8}

/-! ## Runs that succeed and runs that do not -/

theorem run_decodeBoth_good {a : DecodeM (Decoded α)} {b : DecodeM (Decoded β)} {s s' : DecodeState}
    {v : α × β} (h : (decodeBoth a b).run s = .ok ((StatusCode.good, v), s')) :
    ∃ s1, a.run s = .ok ((StatusCode.good, v.1), s1) ∧
      b.run s1 = .ok ((StatusCode.good, v.2), s') := by
  obtain ⟨⟨r, x⟩, s1, hrun1, hrest⟩ := run_bind_ok.mp h
  obtain ⟨⟨r', y⟩, s2, hrun2, hrest⟩ := run_bind_ok.mp hrest
  obtain ⟨heq, rfl⟩ := run_pure_ok.mp hrest
  obtain ⟨hstatus, rfl⟩ := Prod.mk.inj heq
  obtain ⟨rfl, rfl⟩ := or_eq_good.mp hstatus.symm
  exact ⟨s1, hrun1, hrun2⟩

/-- The status is passed on. -/
theorem run_pass_good {d : DecodeM (Decoded α)} {g : Decoded α → DecodeM (Decoded β)}
    {s s' : DecodeState} {v : β} (hg : ∀ p, ∃ b, g p = pure (p.1, b))
    (h : (d >>= g).run s = .ok ((StatusCode.good, v), s')) :
    ∃ x, d.run s = .ok ((StatusCode.good, x), s') ∧
      g (StatusCode.good, x) = pure (StatusCode.good, v) := by
  obtain ⟨⟨r, x⟩, s1, hrun, hrest⟩ := run_bind_ok.mp h
  obtain ⟨b, hb⟩ := hg (r, x)
  rw [hb] at hrest
  obtain ⟨heq, rfl⟩ := run_pure_ok.mp hrest
  obtain ⟨rfl, rfl⟩ := Prod.mk.inj heq
  exact ⟨x, hrun, hb⟩

theorem run_decodeMap_good {d : DecodeM (Decoded α)} {f : α → β} {s s' : DecodeState} {v : β}
    (h : (decodeMap f d).run s = .ok ((StatusCode.good, v), s')) :
    ∃ x, d.run s = .ok ((StatusCode.good, x), s') ∧ v = f x := by
  obtain ⟨⟨r, x⟩, s1, hrun, hrest⟩ := run_bind_ok.mp h
  obtain ⟨heq, rfl⟩ := run_pure_ok.mp hrest
  obtain ⟨rfl, rfl⟩ := Prod.mk.inj heq
  exact ⟨x, hrun, rfl⟩

theorem run_guard_good {d : DecodeM (Decoded α)} {z : Decoded α → β}
    {f : Decoded α → DecodeM (Decoded β)} {s s' : DecodeState} {v : β}
    (h : (d >>= fun r => if r.1 ≠ StatusCode.good then pure (r.1, z r) else f r).run s =
      .ok ((StatusCode.good, v), s')) :
    ∃ x s1, d.run s = .ok ((StatusCode.good, x), s1) ∧
      (f (StatusCode.good, x)).run s1 = .ok ((StatusCode.good, v), s') := by
  obtain ⟨⟨r, x⟩, s1, hrun, hrest⟩ := run_bind_ok.mp h
  obtain ⟨hbad, hrest⟩ | ⟨hgood, hrest⟩ := run_ite_cases hrest
  · obtain ⟨heq, -⟩ := run_pure_ok.mp hrest
    exact absurd (Prod.mk.inj heq).1.symm hbad
  · rw [show r = StatusCode.good from not_not.mp hgood] at hrun hrest
    exact ⟨x, s1, hrun, hrest⟩

theorem run_guard_of_good {d : DecodeM (Decoded α)} {z : Decoded α → β}
    {f : Decoded α → DecodeM (Decoded β)} {s s1 : DecodeState} {x : α}
    (h : d.run s = .ok ((StatusCode.good, x), s1)) :
    (d >>= fun r => if r.1 ≠ StatusCode.good then pure (r.1, z r) else f r).run s =
      (f (StatusCode.good, x)).run s1 := by
  rw [run_bind_of_ok h, if_neg (not_not_intro rfl)]

/-- From `t` there is no success. -/
def Fails (e : DecodeM (Decoded α)) (t : DecodeState) : Prop :=
  ∀ w t', e.run t ≠ .ok ((StatusCode.good, w), t')

theorem Fails.pass {e : DecodeM (Decoded α)} {g : Decoded α → DecodeM (Decoded β)} {t : DecodeState}
    (h : Fails e t) (hg : ∀ p, ∃ b, g p = pure (p.1, b)) : Fails (e >>= g) t := by
  intro w t' hrun
  obtain ⟨x, hrun, -⟩ := run_pass_good hg hrun
  exact h x t' hrun

theorem Fails.guard {e : DecodeM (Decoded α)} {z : Decoded α → β}
    {g : Decoded α → DecodeM (Decoded β)} {t : DecodeState} (h : Fails e t) :
    Fails (e >>= fun r => if r.1 ≠ StatusCode.good then pure (r.1, z r) else g r) t := by
  intro w t' hrun
  obtain ⟨x, t1, hrun, -⟩ := run_guard_good hrun
  exact h x t1 hrun

theorem Fails.both_left {a : DecodeM (Decoded α)} {b : DecodeM (Decoded β)} {t : DecodeState}
    (h : Fails a t) : Fails (decodeBoth a b) t := by
  intro w t' hrun
  obtain ⟨t1, hrun, -⟩ := run_decodeBoth_good hrun
  exact h w.1 t1 hrun

theorem Fails.both_right {a : DecodeM (Decoded α)} {b : DecodeM (Decoded β)} {t t1 : DecodeState}
    {p : Decoded α} (hrun : a.run t = .ok (p, t1)) (h : Fails b t1) : Fails (decodeBoth a b) t := by
  intro w t' hall
  obtain ⟨t2, hfirst, hsecond⟩ := run_decodeBoth_good hall
  cases hrun.symm.trans hfirst
  exact h w.2 t' hsecond

/-! ## What is read -/

/-- `d` reads the bytes `bs` when at least `n` more come behind them. -/
def Reads (n : Nat) (d : DecodeM α) (bs : List UInt8) (Q : α → Prop) : Prop :=
  ∀ (s : DecodeState) (rest : List UInt8), s.At (bs ++ rest) → n ≤ rest.length →
    ∃ a s', d.run s = .ok (a, s') ∧ Q a ∧ s'.At rest ∧ s'.pos = s.pos + bs.length

/-- A good status and a destination that `Q` holds of. -/
def Good (Q : α → Prop) (a : Decoded α) : Prop := a.1 = StatusCode.good ∧ Q a.2

variable {Q : α → Prop} {d : DecodeM α} {R : β → Prop} {f : α → DecodeM β} {s : UaString}

theorem Reads.mono {R : α → Prop} (h : Reads m d bs Q) (hle : m ≤ n) (himp : ∀ a, Q a → R a) :
    Reads n d bs R := by
  intro s rest hat hn
  obtain ⟨a, s', hrun, hq, hrest⟩ := h s rest hat (hle.trans hn)
  exact ⟨a, s', hrun, himp a hq, hrest⟩

theorem reads_pure {a : α} (h : Q a) : Reads n (pure a) [] Q :=
  fun s _ hat _ => ⟨a, s, rfl, h, hat, rfl⟩

theorem Reads.bind (hd : Reads m d bs Q) (hle : m ≤ bs'.length + n)
    (hf : ∀ a, Q a → Reads n (f a) bs' R) : Reads n (d >>= f) (bs ++ bs') R := by
  intro s rest hat hlen
  rw [List.append_assoc] at hat
  have hm : m ≤ (bs' ++ rest).length := by
    rw [List.length_append]
    omega
  obtain ⟨a, s1, hrun, hq, hat1, hpos1⟩ := hd s (bs' ++ rest) hat hm
  obtain ⟨b, s2, hrun', hr, hat2, hpos2⟩ := hf a hq s1 rest hat1 hlen
  refine ⟨b, s2, ?_, hr, hat2, ?_⟩
  · rw [run_bind_of_ok hrun]
    exact hrun'
  · rw [hpos2, hpos1, List.length_append, Nat.add_assoc]

theorem Reads.bind_nil (hd : Reads n d bs Q) (hf : ∀ a, Q a → Reads n (f a) [] R) :
    Reads n (d >>= f) bs R := by
  have h := hd.bind (Nat.le_add_left n _) hf
  rw [List.append_nil] at h
  exact h

theorem Reads.get_bind {f : DecodeState → DecodeM α}
    (h : ∀ s : DecodeState, s.pos + bs.length + n ≤ s.src.length → Reads n (f s) bs Q) :
    Reads n (get >>= f) bs Q := by
  intro s rest hat hn
  refine h s ?_ s rest hat hn
  rw [hat.length_eq, List.length_append]
  omega

theorem Reads.both {a : DecodeM (Decoded α)} {b : DecodeM (Decoded β)} (ha : Reads m a bs (Good Q))
    (hle : m ≤ bs'.length + n) (hb : Reads n b bs' (Good R)) :
    Reads n (decodeBoth a b) (bs ++ bs') (Good fun p => Q p.1 ∧ R p.2) := by
  apply ha.bind hle
  rintro ⟨r, x⟩ ⟨hr, hx⟩
  apply hb.bind_nil
  rintro ⟨r', y⟩ ⟨hr', hy⟩
  exact reads_pure ⟨or_eq_good.mpr ⟨hr, hr'⟩, hx, hy⟩

theorem Reads.map {d : DecodeM (Decoded α)} {f : α → β} {Q : β → Prop}
    (h : Reads n d bs (Good fun x => Q (f x))) : Reads n (decodeMap f d) bs (Good Q) := by
  apply h.bind_nil
  rintro ⟨r, x⟩ ⟨hr, hx⟩
  exact reads_pure ⟨hr, hx⟩

/-! ## When something comes back -/

/-- From `s`, `d` does not return what `Q` asks for. -/
def Refuses (Q : α → Prop) (d : DecodeM (Decoded α)) (s : DecodeState) : Prop :=
  ∀ x s', d.run s = .ok ((StatusCode.good, x), s') → ¬ Q x

/-- `d` returns what `Q` asks for just when `c` holds and at least `n` bytes come behind `bs`. -/
structure Keeps (c : Prop) (n : Nat) (d : DecodeM (Decoded α)) (bs : List UInt8) (Q : α → Prop) :
    Prop where
  reads : c → Reads n d bs (Good Q)
  refuses : ∀ (s : DecodeState) (rest : List UInt8), s.At (bs ++ rest) → ¬ (c ∧ n ≤ rest.length) →
    Refuses Q d s

variable {c c' : Prop}

/-- What is read whatever follows is compared with what `Q` asks for. -/
theorem Reads.keeps {d : DecodeM (Decoded α)} {y : α} (h : Reads 0 d bs (Good (· = y))) :
    Keeps (Q y) 0 d bs Q := by
  constructor
  · intro hy
    apply h.mono (Nat.le_refl 0)
    rintro ⟨r, x⟩ ⟨hr, hx⟩
    dsimp only at hr hx
    subst hr hx
    exact ⟨rfl, hy⟩
  · rintro s rest hat hnot x s' hrun hx
    obtain ⟨⟨r, y'⟩, s1, hread, ⟨-, hy⟩, -, -⟩ := h s rest hat (Nat.zero_le _)
    cases hrun.symm.trans hread
    exact hnot ⟨hy ▸ hx, Nat.zero_le _⟩

theorem Reads.always {d : DecodeM (Decoded α)} (h : Reads 0 d bs (Good Q)) : Keeps True 0 d bs Q :=
  ⟨fun _ => h, fun _ _ _ hnot => absurd ⟨trivial, Nat.zero_le _⟩ hnot⟩

theorem Keeps.congr {d : DecodeM (Decoded α)} {R : α → Prop} (h : Keeps c n d bs Q) (hc : c' ↔ c)
    (hQ : ∀ x, R x ↔ Q x) : Keeps c' n d bs R := by
  constructor
  · exact fun hc' => (h.reads (hc.mp hc')).mono (Nat.le_refl n) fun x hx => ⟨hx.1, (hQ _).mpr hx.2⟩
  · intro s rest hat hnot x s' hrun hx
    rw [hc] at hnot
    exact h.refuses s rest hat hnot x s' hrun ((hQ x).mp hx)

/-- The status is passed on. -/
theorem Keeps.pass {d : DecodeM (Decoded α)} {g : Decoded α → DecodeM (Decoded β)} {R : β → Prop}
    {f : α → β} (h : Keeps c n d bs fun x => R (f x)) (hg : ∀ p, ∃ b, g p = pure (p.1, b))
    (hf : ∀ x, g (StatusCode.good, x) = pure (StatusCode.good, f x)) :
    Keeps c n (d >>= g) bs R := by
  constructor
  · intro hc
    apply (h.reads hc).bind_nil
    rintro ⟨r, x⟩ ⟨hr, hx⟩
    dsimp only at hr
    subst hr
    rw [hf]
    exact reads_pure ⟨rfl, hx⟩
  · intro s rest hat hnot y s' hrun hy
    obtain ⟨x, hd, heq⟩ := run_pass_good hg hrun
    rw [hf] at heq
    obtain ⟨⟨-, rfl⟩, -⟩ := run_pure_ok.mp (congrArg (fun e => e.run s) heq)
    exact h.refuses s rest hat hnot x s' hd hy

theorem Keeps.map {d : DecodeM (Decoded α)} {f : α → β} {R : β → Prop}
    (h : Keeps c n d bs fun x => R (f x)) : Keeps c n (decodeMap f d) bs R :=
  h.pass (fun _ => ⟨_, rfl⟩) fun _ => rfl

theorem Keeps.both {a : DecodeM (Decoded α)} {b : DecodeM (Decoded β)} {R : β → Prop}
    (ha : Keeps c m a bs Q) (hb : Keeps c' n b bs' R) :
    Keeps (c ∧ c') (max (m - bs'.length) n) (decodeBoth a b) (bs ++ bs')
      fun p => Q p.1 ∧ R p.2 := by
  constructor
  · rintro ⟨hc, hc'⟩
    exact (ha.reads hc).both (by omega) ((hb.reads hc').mono (Nat.le_max_right _ _) fun _ h => h)
  · rintro s rest hat hnot ⟨x, y⟩ s' hrun ⟨hx, hy⟩
    rw [List.append_assoc] at hat
    obtain ⟨s1, hrun, hrun'⟩ := run_decodeBoth_good hrun
    by_cases hfirst : c ∧ m ≤ (bs' ++ rest).length
    · obtain ⟨p, s2, hread, -, hat1, -⟩ := ha.reads hfirst.1 s _ hat hfirst.2
      cases hrun.symm.trans hread
      rw [List.length_append] at hfirst
      refine hb.refuses s1 rest hat1 ?_ y s' hrun' hy
      exact fun hsecond => hnot ⟨⟨hfirst.1, hsecond.1⟩, by omega⟩
    · exact ha.refuses s _ hat hfirst x s1 hrun hx

/-- Something that is read in front, whatever follows. -/
theorem Reads.bind_keeps {d : DecodeM α} {f : α → DecodeM (Decoded β)} {R : β → Prop}
    (hd : Reads 0 d bs Q) (hf : ∀ a, Q a → Keeps c n (f a) bs' R) :
    Keeps c n (d >>= f) (bs ++ bs') R := by
  constructor
  · exact fun hc => hd.bind (Nat.zero_le _) fun a ha => (hf a ha).reads hc
  · intro s rest hat hnot y s' hrun
    rw [List.append_assoc] at hat
    obtain ⟨a, s1, hread, ha, hat1, -⟩ := hd s _ hat (Nat.zero_le _)
    rw [run_bind_of_ok hread] at hrun
    exact (hf a ha).refuses s1 rest hat1 hnot y s' hrun

theorem Reads.nil_keeps {d : DecodeM α} {f : α → DecodeM (Decoded β)} {R : β → Prop}
    (hd : Reads 0 d [] Q) (hf : ∀ a, Q a → Keeps c n (f a) bs R) : Keeps c n (d >>= f) bs R :=
  hd.bind_keeps hf

theorem Keeps.get_bind {f : DecodeState → DecodeM (Decoded α)} (h : ∀ s, Keeps c n (f s) bs Q) :
    Keeps c n (get >>= f) bs Q :=
  ⟨fun hc => Reads.get_bind fun s _ => (h s).reads hc,
    fun s rest hat hnot => (h s).refuses s rest hat hnot⟩

theorem Keeps.guard {d : DecodeM (Decoded α)} {z : Decoded α → β}
    {f : Decoded α → DecodeM (Decoded β)} {R : β → Prop} (hd : Keeps c m d bs Q)
    (hf : ∀ x, Q x → Keeps c' n (f (StatusCode.good, x)) bs' R)
    (hback : ∀ x y s s', (f (StatusCode.good, x)).run s = .ok ((StatusCode.good, y), s') →
      R y → Q x) :
    Keeps (c ∧ c') (max (m - bs'.length) n)
      (d >>= fun r => if r.1 ≠ StatusCode.good then pure (r.1, z r) else f r) (bs ++ bs') R := by
  constructor
  · rintro ⟨hc, hc'⟩
    apply (hd.reads hc).bind (by omega)
    rintro ⟨r, x⟩ ⟨hr, hx⟩
    dsimp only at hr hx
    subst hr
    rw [if_neg (not_not_intro rfl)]
    exact ((hf x hx).reads hc').mono (Nat.le_max_right _ _) fun _ h => h
  · intro s rest hat hnot y s' hrun hy
    rw [List.append_assoc] at hat
    obtain ⟨x, s1, hrun, hrun'⟩ := run_guard_good hrun
    have hx := hback x y s1 s' hrun' hy
    by_cases hfirst : c ∧ m ≤ (bs' ++ rest).length
    · obtain ⟨p, s2, hread, -, hat1, -⟩ := hd.reads hfirst.1 s _ hat hfirst.2
      cases hrun.symm.trans hread
      rw [List.length_append] at hfirst
      refine (hf x hx).refuses s1 rest hat1 ?_ y s' hrun' hy
      exact fun hsecond => hnot ⟨⟨hfirst.1, hsecond.1⟩, by omega⟩
    · exact hd.refuses s _ hat hfirst x s1 hrun hx

theorem first_of_toList {bytes : Vector UInt8 1} {v : UInt8} (h : bytes.toList = [v]) :
    bytes.get ⟨0, Nat.one_pos⟩ = v := by
  have hget : bytes.toList[0]? = some v := by rw [h]; rfl
  rw [List.getElem?_eq_getElem (by simp), Vector.getElem_toList] at hget
  exact Option.some.inj hget

theorem reads_decodePrimitive {size : Nat} {fromBytes : Vector UInt8 size → α} {zero : α}
    (hsize : bs.length = size)
    (h : ∀ bytes : Vector UInt8 size, bytes.toList = bs → Q (fromBytes bytes)) :
    Reads n (decodePrimitive size fromBytes zero) bs (Good Q) := by
  subst hsize
  intro s rest hat _
  obtain ⟨bytes, hbytes, hrun⟩ :=
    @run_decodePrimitive _ _ fromBytes zero _ hat.start_le hat.le
  rw [hat.take_eq] at hbytes
  exact ⟨_, _, hrun, ⟨rfl, h bytes hbytes⟩, hat.forward, rfl⟩

theorem reads_byteDecodeBinary (v : UInt8) : Reads n byteDecodeBinary [v] (Good (· = v)) := by
  apply reads_decodePrimitive (by rfl)
  intro bytes hbytes
  exact first_of_toList hbytes

theorem reads_booleanDecodeBinary (c : Bool) :
    Reads n booleanDecodeBinary [if c then 1 else 0] (Good (· = if c then 1 else 0)) := by
  apply reads_decodePrimitive (by rfl)
  intro bytes hbytes
  rw [first_of_toList hbytes]
  cases c with
  | false | true => rfl

theorem reads_uint16DecodeBinary (v : UInt16) :
    Reads n uint16DecodeBinary (LittleEndian.toBytes 2 v.toNat) (Good (· = v)) := by
  apply reads_decodePrimitive (LittleEndian.length_toBytes 2 _)
  intro bytes hbytes
  rw [hbytes, LittleEndian.toNat_toBytes_of_lt v.toNat_lt, UInt16.ofNat_toNat]

theorem reads_uint32DecodeBinary (v : UInt32) :
    Reads n uint32DecodeBinary (LittleEndian.toBytes 4 v.toNat) (Good (· = v)) := by
  apply reads_decodePrimitive (LittleEndian.length_toBytes 4 _)
  intro bytes hbytes
  rw [hbytes, LittleEndian.toNat_toBytes_of_lt v.toNat_lt, UInt32.ofNat_toNat]

theorem reads_uint64DecodeBinary (v : UInt64) :
    Reads n uint64DecodeBinary (LittleEndian.toBytes 8 v.toNat) (Good (· = v)) := by
  apply reads_decodePrimitive (LittleEndian.length_toBytes 8 _)
  intro bytes hbytes
  rw [hbytes, LittleEndian.toNat_toBytes_of_lt v.toNat_lt, UInt64.ofNat_toNat]

variable {env : DecodeEnv}

theorem toNat_ofNat_length {length : Nat} (h : length ≤ int32Max) :
    (UInt32.ofNat length).toNat = length := by
  apply UInt32.toNat_ofNat_of_lt
  exact Nat.lt_of_le_of_lt h (by decide)

theorem reads_allocate (halloc : ∀ k, env.calloc k = true) :
    Reads n (allocate env) [] (· = true) :=
  fun s _ hat _ => ⟨_, _, rfl, halloc s.allocations, ⟨hat.start_le, hat.pos_le, hat.drop_eq⟩, rfl⟩

/-- `Array_decodeBinary` goes on behind the length just when the filter lets the array through. -/
theorem run_arrayDecodeBinaryHeader (halloc : ∀ k, env.calloc k = true) {memSize length : Nat}
    (hpos : 0 < length) (hle : length ≤ int32Max) {s : DecodeState} {rest : List UInt8}
    (hat : s.At ((uint32Script (UInt32.ofNat length)).bytes ++ rest)) :
    ∃ s', s'.At rest ∧ s'.pos = s.pos + 4 ∧ (arrayDecodeBinaryHeader env memSize).run s =
      if memSize * length / 32 ≤ rest.length then .ok (.allocated length hpos,
        { s' with allocations := s'.allocations + 1 })
      else .ok (.fails StatusCode.badDecodingError, s') := by
  have hnat := toNat_ofNat_length hle
  have hpositive : ¬ UInt32.ofNat length ≥ 0x80000000 := by
    intro h
    have hge : (0x80000000 : UInt32).toNat ≤ (UInt32.ofNat length).toNat :=
      UInt32.le_iff_toNat_le.mp h
    rw [hnat] at hge
    exact absurd (hge.trans hle) (by decide)
  obtain ⟨⟨r, v⟩, s', hrun, ⟨hr, hv⟩, hat', hpos'⟩ :=
    reads_uint32DecodeBinary (UInt32.ofNat length) s rest hat (Nat.zero_le _)
  dsimp only at hr hv
  subst hr hv
  refine ⟨s', hat', by rw [hpos', LittleEndian.length_toBytes], ?_⟩
  have hshort : s'.tooShort (memSize * (UInt32.ofNat length).toNat / 32) ↔
      ¬ memSize * length / 32 ≤ rest.length := by
    unfold DecodeState.tooShort
    rw [hnat, hat'.length_eq]
    omega
  unfold arrayDecodeBinaryHeader
  rw [run_bind_of_ok hrun]
  dsimp only
  rw [if_neg (not_not_intro rfl), if_neg hpositive, dif_neg (hnat.symm ▸ hpos.ne'), run_get_bind]
  by_cases hroom : memSize * length / 32 ≤ rest.length
  · have hallocate : (allocate env).run s' =
        .ok (true, { s' with allocations := s'.allocations + 1 }) := by
      show Except.ok (env.calloc s'.allocations, _) = _
      rw [halloc]
    rw [if_neg fun h => hshort.mp h hroom, if_pos hroom, run_bind_of_ok hallocate, if_pos rfl]
    simp only [hnat]
    rfl
  · rw [if_pos (hshort.mpr hroom), if_neg hroom]
    rfl

theorem reads_arrayDecodeBinaryHeader (halloc : ∀ k, env.calloc k = true) {memSize length : Nat}
    (hpos : 0 < length) (hle : length ≤ int32Max) :
    Reads (memSize * length / 32) (arrayDecodeBinaryHeader env memSize)
      (uint32Script (UInt32.ofNat length)).bytes (· = .allocated length hpos) := by
  intro s rest hat hroom
  obtain ⟨s', hat', hpos', hrun⟩ := run_arrayDecodeBinaryHeader halloc hpos hle hat
  rw [if_pos hroom] at hrun
  exact ⟨_, _, hrun, rfl, ⟨hat'.start_le, hat'.pos_le, hat'.drop_eq⟩,
    by rw [length_uint32Script]; exact hpos'⟩

/-- The header of an array and what is made of it. -/
theorem Keeps.array (halloc : ∀ k, env.calloc k = true) {c : Prop} {memSize length : Nat}
    (hpos : 0 < length) (hle : length ≤ int32Max) {f : ArrayHeader → DecodeM (Decoded α)} {z : α}
    (hfails : ∀ status, f (.fails status) = pure (status, z))
    (h : Keeps c n (f (.allocated length hpos)) bs Q) :
    Keeps c (max (memSize * length / 32 - bs.length) n) (arrayDecodeBinaryHeader env memSize >>= f)
      ((uint32Script (UInt32.ofNat length)).bytes ++ bs) Q := by
  constructor
  · intro hc
    apply (reads_arrayDecodeBinaryHeader halloc hpos hle).bind (by omega)
    rintro header rfl
    exact (h.reads hc).mono (Nat.le_max_right _ _) fun _ hx => hx
  · intro s rest hat hnot x s1 hrun
    rw [List.append_assoc] at hat
    obtain ⟨s', hat', -, hheader⟩ :=
      @run_arrayDecodeBinaryHeader _ halloc memSize _ hpos hle _ _ hat
    rw [List.length_append] at hheader
    split at hheader
    · rw [run_bind_of_ok hheader] at hrun
      refine h.refuses _ rest (show DecodeState.At _ (bs ++ rest) from ?_) ?_ x s1 hrun
      · exact ⟨hat'.start_le, hat'.pos_le, hat'.drop_eq⟩
      · exact fun hsecond => hnot ⟨hsecond.1, by omega⟩
    · rw [run_bind_of_ok hheader, hfails] at hrun
      cases hrun

theorem reads_arrayDecodeBinaryHeader_empty (memSize : Nat) (sentinel : Bool) :
    Reads n (arrayDecodeBinaryHeader env memSize)
      (uint32Script (if sentinel then 0 else 0xFFFFFFFF)).bytes (· = .empty sentinel) := by
  apply (reads_uint32DecodeBinary _).bind_nil
  rintro ⟨r, v⟩ ⟨hr, hv⟩
  subst hr hv
  cases sentinel with
  | false | true => exact reads_pure rfl

theorem reads_arrayDecodeBinaryOverlay {size : Nat} (hsize : bs.length = size) :
    Reads n (arrayDecodeBinaryOverlay size) bs
      (Good fun o => ∃ mem, o = some mem ∧ mem.toList = bs) :=
  reads_decodePrimitive hsize fun bytes hbytes => ⟨bytes, rfl, hbytes⟩

/-- An Int32 can say how long the string is. -/
def RegularString (s : UaString) : Prop := s.length ≤ int32Max

/-- The string that the encoding of `s` is decoded to. -/
def decodedString : UaString → UaString
  | .mem [] => .null
  | s => s

theorem reads_stringDecodeBinary (halloc : ∀ k, env.calloc k = true) (h : RegularString s) :
    Reads n (stringDecodeBinary env) (stringScript s).bytes (Good (· = decodedString s)) := by
  have hempty : ∀ sentinel : Bool, Reads n (stringDecodeBinary env)
      (uint32Script (if sentinel then 0 else 0xFFFFFFFF)).bytes
      (Good (· = if sentinel then .sentinel else .null)) := by
    intro sentinel
    apply (reads_arrayDecodeBinaryHeader_empty _ sentinel).bind_nil
    rintro header rfl
    cases sentinel with
    | false | true => exact reads_pure ⟨rfl, rfl⟩
  cases s with
  | null => exact hempty false
  | sentinel => exact hempty true
  | mem items =>
    cases hitems : items with
    | nil => exact hempty false
    | cons b tail =>
    have hpos : 0 < items.length := by
      rw [hitems]
      exact Nat.succ_pos _
    have hle : items.length ≤ int32Max := h
    have hbytes : (stringScript (.mem items)).bytes =
        (uint32Script (UInt32.ofNat items.length)).bytes ++ items := by
      simp only [stringScript, arrayScript, CArray.length_mem, gt_iff_lt, hpos, if_true,
        Nat.not_lt.mpr hle, if_false, CArray.items_mem]
      rfl
    rw [show decodedString (.mem (b :: tail)) = .mem (b :: tail) from rfl, ← hitems, hbytes]
    -- the bytes of the string itself satisfy the filter
    apply (reads_arrayDecodeBinaryHeader halloc hpos hle).bind
      (show 1 * items.length / 32 ≤ items.length + n by omega)
    rintro header rfl
    apply (reads_arrayDecodeBinaryOverlay rfl).bind_nil
    rintro ⟨r, mem⟩ ⟨hr, bytes, hmem, hbytes⟩
    subst hr hmem
    exact reads_pure ⟨rfl, by rw [hbytes]⟩

theorem dimensions_of_bytes (dims : List UInt32) :
    ((List.range dims.length).map fun i => UInt32.ofNat (LittleEndian.toNat
      (((dims.flatMap fun d => LittleEndian.toBytes 4 d.toNat).drop (4 * i)).take 4))) = dims := by
  induction dims with
  | nil => rfl
  | cons d dims ih =>
    rw [List.length_cons, List.range_succ_eq_map, List.map_cons, List.map_map, List.flatMap_cons]
    have hlen : (LittleEndian.toBytes 4 d.toNat).length = 4 := LittleEndian.length_toBytes 4 _
    apply congrArg₂ List.cons
    · rw [Nat.mul_zero, List.drop_zero, List.take_left' hlen,
        LittleEndian.toNat_toBytes_of_lt d.toNat_lt, UInt32.ofNat_toNat]
    · refine Eq.trans ?_ ih
      apply List.map_congr_left
      intro i _
      rw [Function.comp_apply, Nat.mul_succ, Nat.add_comm, ← List.drop_drop, List.drop_left' hlen]

theorem reads_dimensionsDecodeBinary (halloc : ∀ k, env.calloc k = true) {dims : List UInt32}
    (hpos : 0 < dims.length) (hle : dims.length ≤ int32Max) :
    Reads n (dimensionsDecodeBinary env) (dimensionsScript dims).bytes (Good (· = dims)) := by
  have hbytes : (dimensionsScript dims).bytes = (uint32Script (UInt32.ofNat dims.length)).bytes ++
      (dims.flatMap fun d => LittleEndian.toBytes 4 d.toNat) := by
    simp only [dimensionsScript, arrayScript, hpos.ne', if_false, Nat.not_lt.mpr hle]
    rfl
  have hlen : (dims.flatMap fun d => LittleEndian.toBytes 4 d.toNat).length = 4 * dims.length := by
    simp [List.map_const', Nat.mul_comm]
  rw [hbytes]
  apply (reads_arrayDecodeBinaryHeader halloc hpos hle).bind
    (show 4 * dims.length / 32 ≤ _ by rw [hlen]; omega)
  rintro header rfl
  apply (reads_arrayDecodeBinaryOverlay hlen).bind_nil
  rintro ⟨r, mem⟩ ⟨hr, bytes, hmem, hbytes⟩
  subst hr hmem
  refine reads_pure ⟨rfl, ?_⟩
  rw [hbytes]
  exact dimensions_of_bytes dims

/-! ## Identifiers and texts -/

theorem reads_guidDecodeBinary (g : Guid) :
    Reads n guidDecodeBinary (guidScript g).bytes (Good (· = g)) := by
  have hhead : Reads 0 (decodeBoth (decodeBoth uint32DecodeBinary uint16DecodeBinary)
      uint16DecodeBinary) _ _ :=
    ((reads_uint32DecodeBinary g.data1).both (Nat.zero_le _)
      (reads_uint16DecodeBinary g.data2)).both
      (Nat.zero_le _) (reads_uint16DecodeBinary g.data3)
  apply hhead.bind (Nat.zero_le _)
  rintro ⟨r, ⟨data1, data2⟩, data3⟩ ⟨hr, ⟨h1, h2⟩, h3⟩
  have hlast : Reads n (decodePrimitive 8 id (Vector.replicate 8 0)) g.data4.toList
      (Good (· = g.data4)) := by
    apply reads_decodePrimitive g.data4.length_toList
    intro bytes hbytes
    exact Vector.toList_inj.mp hbytes
  apply hlast.bind_nil
  rintro ⟨status, data4⟩ ⟨hstatus, h4⟩
  subst hr h1 h2 h3 hstatus h4
  exact reads_pure ⟨rfl, rfl⟩

def RegularNodeId (n : NodeId) : Prop :=
  match n.identifier with
  | .string s => RegularString s
  | .byteString s => RegularString s
  | _ => True

/-- The NodeId that the encoding of `n` is decoded to. -/
def decodedNodeId (n : NodeId) : NodeId :=
  { n with identifier :=
      match n.identifier with
      | .string s => .string (decodedString s)
      | .byteString s => .byteString (decodedString s)
      | i => i }

/-- The encoding byte of a NodeId without flags. -/
def nodeIdEncodingByte (src : NodeId) : UInt8 :=
  match src.identifier with
  | .numeric n =>
    if n > 65535 ∨ src.namespaceIndex > 255 then 2
    else if n > 255 ∨ src.namespaceIndex > 0 then 1
    else 0
  | .string _ => 3
  | .guid _ => 4
  | .byteString _ => 5

/-- What the encoder writes behind the encoding byte. -/
def nodeIdContent (src : NodeId) : List UInt8 := (nodeIdScript src 0).bytes.tail

theorem bytes_nodeIdScript (src : NodeId) (encoding : UInt8) :
    (nodeIdScript src encoding).bytes =
      (encoding ||| nodeIdEncodingByte src) :: nodeIdContent src := by
  unfold nodeIdContent nodeIdScript nodeIdEncodingByte
  cases src.identifier with
  | numeric n =>
    dsimp only
    split
    · rfl
    · split
      · rfl
      · rfl
  | string s => rfl
  | guid g => rfl
  | byteString s => rfl

/-! A number that is written with fewer bytes than it has in memory. -/

theorem toUInt16_toUInt8 {v : UInt16} (h : ¬ v > 255) : v.toUInt8.toUInt16 = v := by
  have hle : v.toNat ≤ 255 := Nat.not_lt.mp fun hlt => h (UInt16.lt_iff_toNat_lt.mpr hlt)
  apply UInt16.toNat.inj
  rw [UInt8.toNat_toUInt16, UInt16.toNat_toUInt8]
  omega

theorem toUInt32_toUInt16 {v : UInt32} (h : ¬ v > 65535) : v.toUInt16.toUInt32 = v := by
  have hle : v.toNat ≤ 65535 := Nat.not_lt.mp fun hlt => h (UInt32.lt_iff_toNat_lt.mpr hlt)
  apply UInt32.toNat.inj
  rw [UInt16.toNat_toUInt32, UInt32.toNat_toUInt16]
  omega

theorem toUInt32_toUInt8 {v : UInt32} (h : ¬ v > 255) : v.toUInt8.toUInt32 = v := by
  have hle : v.toNat ≤ 255 := Nat.not_lt.mp fun hlt => h (UInt32.lt_iff_toNat_lt.mpr hlt)
  apply UInt32.toNat.inj
  rw [UInt8.toNat_toUInt32, UInt32.toNat_toUInt8]
  omega

theorem eq_zero_of_not_pos {v : UInt16} (h : ¬ v > 0) : v = 0 := by
  apply UInt16.toNat.inj
  exact Nat.eq_zero_of_not_pos fun hlt => h (UInt16.lt_iff_toNat_lt.mpr hlt)

theorem reads_nodeIdParts {d : DecodeM (Decoded UInt16)} {e : DecodeM (Decoded α)} {ns : UInt16}
    {x : α} (f : α → NodeIdentifier) (hd : Reads n d bs (Good (· = ns)))
    (hn : n ≤ bs'.length + n) (he : Reads n e bs' (Good (· = x))) :
    Reads n (decodeMap (fun (ns, x) => (⟨ns, f x⟩ : NodeId)) (decodeBoth d e)) (bs ++ bs')
      (Good (· = ⟨ns, f x⟩)) := by
  apply Reads.map
  refine (hd.both hn he).mono (Nat.le_refl n) ?_
  rintro ⟨r, ns', x'⟩ ⟨hr, hns, hx⟩
  subst hr hns hx
  exact ⟨rfl, rfl⟩

theorem reads_nodeIdDecodeBinaryContent (halloc : ∀ k, env.calloc k = true) {src : NodeId}
    (h : RegularNodeId src) :
    Reads n (nodeIdDecodeBinaryContent env (nodeIdEncodingByte src)) (nodeIdContent src)
      (Good (· = decodedNodeId src)) := by
  obtain ⟨ns, ident⟩ := src
  have hle : ∀ bs' : List UInt8, n ≤ bs'.length + n := fun _ => Nat.le_add_left n _
  cases ident with
  | numeric i =>
    unfold nodeIdContent nodeIdScript nodeIdEncodingByte
    dsimp only
    split
    · exact reads_nodeIdParts .numeric (reads_uint16DecodeBinary ns) (hle _)
        (reads_uint32DecodeBinary i)
    · next hcomplete =>
      obtain ⟨hi, hns⟩ := not_or.mp hcomplete
      split
      · show Reads n (decodeMap (fun p => (⟨p.1.toUInt16, .numeric p.2.toUInt32⟩ : NodeId))
          (decodeBoth byteDecodeBinary uint16DecodeBinary)) (_ ++ _) _
        apply Reads.map
        refine ((reads_byteDecodeBinary ns.toUInt8).both (hle _)
          (reads_uint16DecodeBinary i.toUInt16)).mono (Nat.le_refl n) ?_
        rintro ⟨r, b, x⟩ ⟨hr, hb, hx⟩
        dsimp only at hr hb hx
        subst hr hb hx
        refine ⟨rfl, ?_⟩
        show (⟨_, _⟩ : NodeId) = ⟨ns, .numeric i⟩
        rw [toUInt16_toUInt8 hns, toUInt32_toUInt16 hi]
      · next hfour =>
        obtain ⟨hi, hns⟩ := not_or.mp hfour
        show Reads n (decodeMap (fun x => (⟨0, .numeric x.toUInt32⟩ : NodeId)) byteDecodeBinary) _ _
        apply Reads.map
        refine (reads_byteDecodeBinary i.toUInt8).mono (Nat.le_refl n) ?_
        rintro ⟨r, x⟩ ⟨hr, hx⟩
        dsimp only at hr hx
        subst hr hx
        refine ⟨rfl, ?_⟩
        show (⟨_, _⟩ : NodeId) = ⟨ns, .numeric i⟩
        rw [toUInt32_toUInt8 hi, eq_zero_of_not_pos hns]
  | string s =>
    exact reads_nodeIdParts .string (reads_uint16DecodeBinary ns) (hle _)
      (reads_stringDecodeBinary halloc h)
  | guid g =>
    exact reads_nodeIdParts .guid (reads_uint16DecodeBinary ns) (hle _) (reads_guidDecodeBinary g)
  | byteString s =>
    exact reads_nodeIdParts .byteString (reads_uint16DecodeBinary ns) (hle _)
      (reads_stringDecodeBinary halloc h)

theorem reads_nodeIdDecodeBinary (halloc : ∀ k, env.calloc k = true) {src : NodeId}
    (h : RegularNodeId src) :
    Reads n (nodeIdDecodeBinary env) (nodeIdEncodingByte src :: nodeIdContent src)
      (Good (· = decodedNodeId src)) := by
  have hbyte : Reads 0 byteDecodeBinary [nodeIdEncodingByte src] _ := reads_byteDecodeBinary _
  apply hbyte.bind (Nat.zero_le _)
  rintro ⟨r, encodingByte⟩ ⟨hr, hbyte⟩
  dsimp only at hr hbyte ⊢
  subst hr hbyte
  rw [if_neg (not_not_intro rfl)]
  exact reads_nodeIdDecodeBinaryContent halloc h

/-- The flags in the encoding byte of an ExpandedNodeId. -/
def expandedNodeIdFlags (src : ExpandedNodeId) : UInt8 :=
  (if isRegular src.namespaceUri then 0x80 else 0) ||| (if src.serverIndex > 0 then 0x40 else 0)

/-- The ExpandedNodeId that the encoding of `n` is decoded to: a namespace URI replaces the
index. -/
def decodedExpandedNodeId (n : ExpandedNodeId) : ExpandedNodeId where
  nodeId := if isRegular n.namespaceUri then { decodedNodeId n.nodeId with namespaceIndex := 0 }
    else decodedNodeId n.nodeId
  namespaceUri := if isRegular n.namespaceUri then decodedString n.namespaceUri else .null
  serverIndex := n.serverIndex

theorem nodeIdEncodingByte_cases (src : NodeId) :
    nodeIdEncodingByte src = 0 ∨ nodeIdEncodingByte src = 1 ∨ nodeIdEncodingByte src = 2 ∨
      nodeIdEncodingByte src = 3 ∨ nodeIdEncodingByte src = 4 ∨ nodeIdEncodingByte src = 5 := by
  unfold nodeIdEncodingByte
  cases src.identifier with
  | numeric n =>
    dsimp only
    split
    · simp
    · split
      · simp
      · simp
  | string s => simp
  | guid g => simp
  | byteString s => simp

theorem flags_encodingByte (src : ExpandedNodeId) :
    (expandedNodeIdFlags src ||| nodeIdEncodingByte src.nodeId) &&& 0x3F =
        nodeIdEncodingByte src.nodeId ∧
      (decide ((expandedNodeIdFlags src ||| nodeIdEncodingByte src.nodeId) &&& 0x80 ≠ 0) =
        isRegular src.namespaceUri) ∧
      (decide ((expandedNodeIdFlags src ||| nodeIdEncodingByte src.nodeId) &&& 0x40 ≠ 0) =
        decide (src.serverIndex > 0)) := by
  unfold expandedNodeIdFlags
  have hcases := nodeIdEncodingByte_cases src.nodeId
  generalize nodeIdEncodingByte src.nodeId = k at hcases ⊢
  generalize isRegular src.namespaceUri = uri
  by_cases hindex : src.serverIndex > 0
  · simp only [hindex, if_true]
    rcases hcases with rfl | rfl | rfl | rfl | rfl | rfl <;> cases uri <;> decide
  · simp only [hindex, if_false]
    rcases hcases with rfl | rfl | rfl | rfl | rfl | rfl <;> cases uri <;> decide

/-- An empty string of either kind as the undefined one. -/
def nullString (s : UaString) : UaString := if s.length = 0 then .null else s

theorem nullString_decodedString (s : UaString) : nullString (decodedString s) = nullString s := by
  cases s with
  | null | sentinel => rfl
  | mem items =>
    cases items with
    | nil => rfl
    | cons b items => rfl

theorem nullString_of_not_isRegular (hs : isRegular s = false) : nullString s = .null := by
  cases s with
  | null | sentinel => rfl
  | mem items => cases hs

theorem reads_scriptIf {c : Bool} {sc : Script} {b : DecodeM (Decoded β)} {zero : β} {Q : β → Prop}
    (h : c = true → Reads n b sc.bytes (Good Q)) (hzero : c = false → Q zero) :
    Reads n (decodeIf c b zero) (scriptIf c sc).bytes (Good Q) := by
  cases c with
  | false => exact reads_pure ⟨rfl, hzero rfl⟩
  | true => exact h rfl

theorem run_maskEncodingByte_at {s : DecodeState} {encoding : UInt8} (h : s.At (encoding :: bs)) :
    ∃ s', maskEncodingByte.run s = .ok (encoding, s') ∧ s'.At ((encoding &&& 0x3F) :: bs) ∧
      s'.pos = s.pos := by
  have hend : s.pos + 1 ≤ s.src.length := by
    rw [h.length_eq, List.length_cons]
    omega
  obtain ⟨bytes, hrun, hbytes⟩ := run_readBytes h.start_le hend
  have hget : bytes.get ⟨0, Nat.one_pos⟩ = encoding := by
    apply first_of_toList
    rw [hbytes, h.drop_eq]
    rfl
  refine ⟨{ s with src := s.src.set s.pos (encoding &&& 0x3F) }, ?_, ?_, rfl⟩
  · unfold maskEncodingByte
    rw [run_bind_of_ok hrun, hget]
    rfl
  · refine ⟨h.start_le, ?_, ?_⟩
    · show s.pos ≤ (s.src.set _ _).length
      rw [List.length_set]
      exact h.pos_le
    · show (s.src.set _ _).drop s.pos = _
      rw [List.drop_set, if_neg (Nat.lt_irrefl _), Nat.sub_self, h.drop_eq]
      rfl

theorem bytes_expandedNodeIdScript (src : ExpandedNodeId) :
    (expandedNodeIdScript src).bytes =
      (expandedNodeIdFlags src ||| nodeIdEncodingByte src.nodeId) :: (nodeIdContent src.nodeId ++
        (scriptIf (isRegular src.namespaceUri) (stringScript src.namespaceUri)).bytes ++
        (scriptIf (src.serverIndex > 0) (uint32Script src.serverIndex)).bytes) := by
  simp only [expandedNodeIdScript, Script.bytes, bytes_nodeIdScript, List.cons_append]
  rfl

theorem reads_expandedNodeIdDecodeBinary (halloc : ∀ k, env.calloc k = true) {src : ExpandedNodeId}
    (hid : RegularNodeId src.nodeId) (hstring : RegularString src.namespaceUri) :
    Reads n (expandedNodeIdDecodeBinary env) (expandedNodeIdScript src).bytes
      (Good (· = decodedExpandedNodeId src)) := by
  obtain ⟨hmask, huri, hindex⟩ := flags_encodingByte src
  rw [bytes_expandedNodeIdScript]
  intro s rest hat hn
  obtain ⟨s1, hrun1, hat1, hpos1⟩ := run_maskEncodingByte_at hat
  rw [hmask] at hat1
  have hlong : ¬ s.tooShort 1 := by
    apply Nat.not_lt.mpr
    rw [hat.length_eq, List.cons_append, List.length_cons]
    omega
  have huriReads : Reads 0 (decodeIf (isRegular src.namespaceUri) (stringDecodeBinary env) .null)
      (scriptIf (isRegular src.namespaceUri) (stringScript src.namespaceUri)).bytes
      (Good (· = (decodedExpandedNodeId src).namespaceUri)) := by
    apply reads_scriptIf
    · intro hreg
      have huri : (decodedExpandedNodeId src).namespaceUri = decodedString src.namespaceUri :=
        if_pos hreg
      rw [huri]
      exact reads_stringDecodeBinary halloc hstring
    · intro hreg
      exact (if_neg (by rw [hreg]; nofun)).symm
  have hindexReads : Reads n (decodeIf (decide (src.serverIndex > 0)) uint32DecodeBinary 0)
      (scriptIf (src.serverIndex > 0) (uint32Script src.serverIndex)).bytes
      (Good (· = src.serverIndex)) := by
    apply reads_scriptIf
    · exact fun _ => reads_uint32DecodeBinary _
    · intro hzero
      have hnot := of_decide_eq_false hzero
      exact (UInt32.toNat.inj (Nat.eq_zero_of_not_pos fun hlt =>
        hnot (UInt32.lt_iff_toNat_lt.mpr hlt))).symm
  have hparts := ((reads_nodeIdDecodeBinary halloc hid).both (Nat.zero_le _) huriReads).both
    (Nat.zero_le _) hindexReads
  rw [List.cons_append, List.cons_append] at hparts
  have hall := Reads.map
    (f := fun p => ({
      nodeId := if isRegular src.namespaceUri then { p.1.1 with namespaceIndex := 0 } else p.1.1
      namespaceUri := p.1.2
      serverIndex := p.2 } : ExpandedNodeId))
    (Q := (· = decodedExpandedNodeId src))
    (hparts.mono (Nat.le_refl n) (by
      rintro ⟨r, ⟨nodeId, uri⟩, index⟩ ⟨hr, ⟨hid, huri⟩, hindex⟩
      dsimp only at hr hid huri hindex
      subst hr hid huri hindex
      exact ⟨rfl, rfl⟩))
  obtain ⟨a, s2, hrun2, hq, hat2, hpos2⟩ := hall s1 rest hat1 hn
  refine ⟨a, s2, ?_, hq, hat2, ?_⟩
  · unfold expandedNodeIdDecodeBinary
    rw [run_get_bind, if_neg hlong, run_bind_of_ok hrun1]
    dsimp only
    rw [huri, hindex]
    exact hrun2
  · rw [hpos2, hpos1]
    rfl

theorem localizedText_mask (a b : Bool) :
    decide (((if a then 0x01 else 0 : UInt8) ||| (if b then 0x02 else 0)) &&& 0x01 ≠ 0) = a ∧
      decide (((if a then 0x01 else 0 : UInt8) ||| (if b then 0x02 else 0)) &&& 0x02 ≠ 0) = b := by
  cases a <;> cases b <;> decide

theorem reads_localizedTextDecodeBinary (halloc : ∀ k, env.calloc k = true) {src : LocalizedText}
    (hlocale : RegularString src.locale) (htext : RegularString src.text) :
    Reads n (localizedTextDecodeBinary env) (localizedTextScript src).bytes
      (Good (· = ⟨decodedString src.locale, decodedString src.text⟩)) := by
  have hfield : ∀ {s : UaString}, RegularString s → ∀ k,
      Reads k (decodeIf (hasData s) (stringDecodeBinary env) .null)
        (scriptIf (hasData s) (stringScript s)).bytes (Good (· = decodedString s)) := by
    intro s hs k
    apply reads_scriptIf
    · exact fun _ => reads_stringDecodeBinary halloc hs
    · intro hnull
      rw [not_not.mp (of_decide_eq_false hnull)]
      rfl
  obtain ⟨hmask1, hmask2⟩ := localizedText_mask (hasData src.locale) (hasData src.text)
  simp only [localizedTextScript, Script.bytes, List.append_assoc]
  apply (reads_byteDecodeBinary _).bind (Nat.zero_le _)
  rintro ⟨r, encoding⟩ ⟨hr, hencoding⟩
  dsimp only at hr hencoding ⊢
  subst hr hencoding
  rw [hmask1, hmask2]
  apply ((hfield hlocale 0).both (Nat.zero_le _) (hfield htext n)).bind_nil
  rintro ⟨status, locale, text⟩ ⟨hstatus, hloc, htxt⟩
  dsimp only at hstatus hloc htxt ⊢
  subst hstatus hloc htxt
  exact reads_pure ⟨rfl, rfl⟩

end FactoryThing.Encoding
