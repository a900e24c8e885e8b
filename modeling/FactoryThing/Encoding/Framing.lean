import FactoryThing.Encoding.BodyLengths

/-!
# The check and the format

The decoder with the checks gives the result of `UA_decodeBinary` just where the format puts the
ends of the bodies at the places that their length fields announce. What is compared is a run of the
decoder that succeeds with one of the decoder with the checks that starts likewise.
-/

namespace FactoryThing.Encoding

open Stateful DecodeState

variable {env : DecodeEnv} {α β : Type}

/-- `e`, run from `t`, when the decoder itself gets from `s` to `s'` with `v`. -/
inductive Framed (e : DecodeM (Decoded α)) (k : Extent) (s s' t : DecodeState) (v : α) : Prop where
  | mismatch (hk : k s.ahead = none) (hfails : Fails e t)
  | agrees (hk : k s.ahead = some s'.ahead) (hadvances : s.Advances s') (t' : DecodeState)
      (hrun : e.run t = .ok ((StatusCode.good, v), t')) (hst : s'.Similar t')
        (hjumps : t'.jumps = [])

/-- Where `d` succeeds, `e` does the same or, just where there is nothing that `k` measures,
fails. -/
def Frames (d e : DecodeM (Decoded α)) (k : Extent) : Prop :=
  ∀ s t v s', s.Similar t → t.jumps = [] →
    d.run s = .ok ((StatusCode.good, v), s') → Framed e k s s' t v

theorem Framed.of_run {e e' : DecodeM (Decoded α)} {k l : Extent} {s s1 s' t t1 : DecodeState}
    {v : α} (hrun : e'.run t = e.run t1) (hk : k s.ahead = l s1.ahead) (hadvances : s.Advances s1)
    (h : Framed e l s1 s' t1 v) : Framed e' k s s' t v := by
  cases h with
  | mismatch hl hfails => exact .mismatch (hk.trans hl) fun w t' hall => hfails w t' (hrun ▸ hall)
  | agrees hl hadvances' t' ht' hst' hjumps' =>
    exact .agrees (hk.trans hl) (hadvances.trans hadvances') t' (hrun.trans ht') hst' hjumps'

theorem Framed.after {x : DecodeM α} {a : α} {f : α → DecodeM (Decoded β)} {k l : Extent}
    {s s1 s' t t1 : DecodeState} {v : β} (hrun : x.run t = .ok (a, t1))
    (hk : k s.ahead = l s1.ahead)
    (hadvances : s.Advances s1) (h : Framed (f a) l s1 s' t1 v) : Framed (x >>= f) k s s' t v :=
  h.of_run (run_bind_of_ok hrun) hk hadvances

namespace Frames

variable {d e : DecodeM (Decoded α)} {k l : Extent}

theorem leaf (hcovers : Covers d k) (hneutral : Neutral _ d d) : Frames d d k := by
  intro s t v s' hst hjumps hrun
  obtain ⟨hk, hadvances⟩ := hcovers s v s' hrun
  obtain ⟨t', ht', hst', hjumps'⟩ := hneutral s t hst _ s' hrun
  exact .agrees hk hadvances t' ht' hst' (hjumps'.trans hjumps)

theorem both {a a' : DecodeM (Decoded α)} {b b' : DecodeM (Decoded β)} (ha : Frames a a' k)
    (hb : Frames b b' l) : Frames (decodeBoth a b) (decodeBoth a' b') (Extent.both k l) := by
  intro s t v s' hst hjumps hrun
  obtain ⟨s1, hrun1, hrun2⟩ := run_decodeBoth_good hrun
  cases ha s t v.1 s1 hst hjumps hrun1 with
  | mismatch hk hfails =>
      exact .mismatch (by rw [Extent.both, hk, Option.bind_none]) hfails.both_left
  | agrees hk hadvances t1 ht1 hst1 hjumps1 =>
    cases hb s1 t1 v.2 s' hst1 hjumps1 hrun2 with
    | mismatch hl hfails =>
      exact .mismatch (by rw [Extent.both, hk, Option.bind_some, hl]) (hfails.both_right ht1)
    | agrees hl hadvances' t2 ht2 hst2 hjumps2 =>
      refine .agrees (by rw [Extent.both, hk, Option.bind_some, hl]) (hadvances.trans hadvances') t2
        ?_ hst2 hjumps2
      unfold decodeBoth
      rw [run_bind_of_ok ht1, run_bind_of_ok ht2]
      rfl

theorem pass {g : Decoded α → DecodeM (Decoded β)} (h : Frames d e k)
    (hg : ∀ p, ∃ b, g p = Pure.pure (p.1, b)) : Frames (d >>= g) (e >>= g) k := by
  intro s t v s' hst hjumps hrun
  obtain ⟨x, hrun, hx⟩ := run_pass_good hg hrun
  cases h s t x s' hst hjumps hrun with
  | mismatch hk hfails => exact .mismatch hk (hfails.pass hg)
  | agrees hk hadvances t1 ht1 hst1 hjumps1 =>
    refine .agrees hk hadvances t1 ?_ hst1 hjumps1
    rw [run_bind_of_ok ht1, hx]
    rfl

theorem map (f : α → β) (h : Frames d e k) : Frames (decodeMap f d) (decodeMap f e) k :=
  h.pass fun _ => ⟨_, rfl⟩

theorem bad {r : StatusCode} (h : r ≠ StatusCode.good) (a : α) (e : DecodeM (Decoded α))
    (k : Extent) : Frames (Pure.pure (r, a)) e k := by
  intro s t v s' _ _ hrun
  obtain ⟨heq, -⟩ := run_pure_ok.mp hrun
  exact absurd (Prod.mk.inj heq).1.symm h

theorem pure (a : α) :
    Frames (Pure.pure (StatusCode.good, a)) (Pure.pure (StatusCode.good, a)) some :=
  leaf (Covers.pure a) ((congruentLeaf_neutral ⟨⟨[], []⟩, fun _ => true⟩).pure _)

theorem ite {c : Prop} [Decidable c] {d d' e e' : DecodeM (Decoded α)} (hd : Frames d d' k)
    (he : Frames e e' l) :
    Frames (if c then d else e) (if c then d' else e') (if c then k else l) := by
  split
  · exact hd
  · exact he

theorem decodeIf {c : Bool} {zero : α} (h : Frames d e k) :
    Frames (decodeIf c d zero) (decodeIf c e zero) (Extent.skipIf c k) := by
  cases c with
  | false => exact pure _
  | true => exact h

theorem bind_guard {z : Decoded α → β} {f g : Decoded α → DecodeM (Decoded β)} (h : Frames d e k)
    (hf : ∀ a, Frames (f (StatusCode.good, a)) (g (StatusCode.good, a)) l) :
    Frames (d >>= fun r => if r.1 ≠ StatusCode.good then Pure.pure (r.1, z r) else f r)
      (e >>= fun r => if r.1 ≠ StatusCode.good then Pure.pure (r.1, z r) else g r)
      (Extent.both k l) := by
  intro s t v s' hst hjumps hrun
  obtain ⟨x, s1, hrun1, hrest⟩ := run_guard_good hrun
  cases h s t x s1 hst hjumps hrun1 with
  | mismatch hk hfails => exact .mismatch (by rw [Extent.both, hk, Option.bind_none]) hfails.guard
  | agrees hk hadvances t1 ht1 hst1 hjumps1 =>
    exact Framed.of_run (run_guard_of_good ht1)
      (by rw [Extent.both, hk, Option.bind_some]) hadvances
      (hf x s1 t1 v s' hst1 hjumps1 hrest)

theorem byte {z : Decoded UInt8 → α} {f g : Decoded UInt8 → DecodeM (Decoded α)}
    {k : UInt8 → Extent} (h : ∀ b, Frames (f (StatusCode.good, b)) (g (StatusCode.good, b)) (k b)) :
    Frames (byteDecodeBinary >>= fun r =>
      if r.1 ≠ StatusCode.good then Pure.pure (r.1, z r) else f r)
      (byteDecodeBinary >>= fun r => if r.1 ≠ StatusCode.good then Pure.pure (r.1, z r) else g r)
      (Extent.byte k) := by
  intro s t v s' hst hjumps hrun
  obtain ⟨b, s1, hbyte, hrest⟩ := run_guard_good hrun
  obtain ⟨hahead, hadvances⟩ := ahead_of_byte hbyte
  obtain ⟨t1, ht1, hst1, hjumps1⟩ := neutral_decodePrimitive _ _ _ s t hst _ s1 hbyte
  exact Framed.of_run (run_guard_of_good ht1) (by rw [hahead]; rfl) hadvances
    (h b s1 t1 v s' hst1 (hjumps1.trans hjumps) hrest)

theorem allocated {z : α} {r : StatusCode} (hr : r ≠ StatusCode.good) (h : Frames d e k) :
    Frames (allocate env >>= fun success => if success then d else Pure.pure (r, z))
      (allocate env >>= fun success => if success then e else Pure.pure (r, z)) k := by
  intro s t v s' hst hjumps hrun
  obtain ⟨success, s1, halloc, hrest⟩ := run_bind_ok.mp hrun
  obtain ⟨t1, ht1, hst1, hjumps1⟩ := (congruentLeaf_neutral env).allocate s t hst _ s1 halloc
  obtain ⟨hsuccess, hthen⟩ | ⟨-, helse⟩ := run_ite_cases hrest
  · cases halloc
    have hadvances : s.Advances { s with allocations := s.allocations + 1 } :=
      ⟨rfl, Nat.le_refl _, fun hs => hs⟩
    refine Framed.after ht1 (by rfl) hadvances ?_
    rw [if_pos hsuccess]
    exact h _ t1 v s' hst1 (hjumps1.trans hjumps) hthen
  · obtain ⟨heq, -⟩ := run_pure_ok.mp helse
    exact absurd (Prod.mk.inj heq).1.symm hr

/-- Memory is allocated when the length has been jumped over. -/
theorem jump_allocated {z : α} {r : StatusCode} (hr : r ≠ StatusCode.good)
    (h : Frames (jumpOverLength >>= fun _ => d) (jumpOverLength >>= fun _ => e) k) :
    Frames (jumpOverLength >>= fun _ => Encoding.allocate env >>= fun success =>
        if success then d else Pure.pure (r, z))
      (jumpOverLength >>= fun _ => Encoding.allocate env >>= fun success =>
        if success then e else Pure.pure (r, z)) k := by
  intro s t v s' hst hjumps hrun
  have hrun : (if env.calloc s.allocations then d else Pure.pure (r, z)).run
      { s with pos := s.pos + 4, jumps := s.jumps ++ [s.pos], allocations := s.allocations + 1 } =
      .ok ((StatusCode.good, v), s') := hrun
  obtain ⟨hsuccess, hthen⟩ | ⟨-, helse⟩ := run_ite_cases hrun
  · have hrunt : (jumpOverLength >>= fun _ => Encoding.allocate env >>= fun success =>
        if success then e else Pure.pure (r, z)).run t =
        (jumpOverLength >>= fun _ => e).run { t with allocations := t.allocations + 1 } := by
      show (if env.calloc t.allocations then e else Pure.pure (r, z)).run _ = _
      rw [hst.allocations_eq, if_pos hsuccess]
      rfl
    have hadvances : s.Advances { s with allocations := s.allocations + 1 } :=
      ⟨rfl, Nat.le_refl _, fun hs => hs⟩
    exact Framed.of_run hrunt (by rfl) hadvances (h _ _ v s' ⟨hst.src_eq, hst.start_eq, hst.pos_eq,
      congrArg (· + 1) hst.allocations_eq⟩ hjumps hthen)
  · obtain ⟨heq, -⟩ := run_pure_ok.mp helse
    exact absurd (Prod.mk.inj heq).1.symm hr

theorem elements {d e : DecodeM (Decoded Value)} (h : Frames d e k) (n : Nat) :
    Frames (arrayDecodeBinaryElements d n) (arrayDecodeBinaryElements e n)
      (Extent.times k (n + 1)) := by
  induction n with
  | zero =>
    have hone : Extent.times k 1 = k := funext fun bs => Option.bind_fun_some _
    rw [hone]
    exact h.map _
  | succ n ih => exact h.bind_guard fun v => ih.map _

theorem counted {memSize : Nat} {f g : ArrayHeader → DecodeM (Decoded α)} {k : Nat → Extent}
    {zero : α} (hfails : ∀ status, f (.fails status) = Pure.pure (status, zero))
    (hempty : ∀ sentinel, Frames (f (.empty sentinel)) (g (.empty sentinel)) some)
    (hallocated : ∀ length hpos,
      Frames (f (.allocated length hpos)) (g (.allocated length hpos)) (k length)) :
    Frames (arrayDecodeBinaryHeader env memSize >>= f) (arrayDecodeBinaryHeader env memSize >>= g)
      (Extent.counted k) := by
  intro s t v s' hst hjumps hrun
  obtain ⟨header, s1, hheader, hrest⟩ := run_bind_ok.mp hrun
  obtain ⟨t1, ht1, hst1, hjumps1⟩ :=
    (congruentLeaf_neutral env).header memSize s t hst _ s1 hheader
  rcases header_cases hheader with ⟨status, hbad, rfl⟩ | ⟨hskip, hadvances, hcases⟩
  · rw [hfails] at hrest
    obtain ⟨heq, -⟩ := run_pure_ok.mp hrest
    exact absurd (Prod.mk.inj heq).1.symm hbad
  rcases hcases with ⟨sentinel, rfl, hlength⟩ | ⟨length, hpos, rfl, hlength, hlt⟩
  · refine Framed.after ht1 ?_ hadvances
      (hempty sentinel s1 t1 v s' hst1 (hjumps1.trans hjumps) hrest)
    rw [Extent.counted, hskip, Option.bind_some, if_pos hlength]
  · refine Framed.after ht1 ?_ hadvances
      (hallocated length hpos s1 t1 v s' hst1 (hjumps1.trans hjumps) hrest)
    rw [Extent.counted, hskip, Option.bind_some, if_neg (by omega), hlength]

theorem array (type : DataType) {d e : DecodeM (Decoded Value)} (h : Frames d e k) :
    Frames (arrayDecodeBinary env type d) (arrayDecodeBinary env type e) (Extent.array type k) := by
  apply counted (fun status => rfl)
  · exact fun sentinel => pure _
  · intro length hpos
    apply ite
    · apply leaf
      · apply (Covers.primitive _ _ _).pass
        rintro ⟨r, mem⟩
        cases mem with
        | none => exact ⟨_, rfl⟩
        | some mem => exact ⟨_, rfl⟩
      · apply (neutral_decodePrimitive _ _ _).bind
        rintro ⟨r, mem⟩
        cases mem with
        | none => exact (congruentLeaf_neutral env).pure _
        | some mem => exact (congruentLeaf_neutral env).pure _
    · have helements := h.elements (length - 1)
      rw [Nat.sub_add_cancel hpos] at helements
      apply helements.pass
      rintro ⟨r, data⟩
      dsimp only
      split
      · exact ⟨_, rfl⟩
      · exact ⟨_, rfl⟩

end Frames

/-! ## The two places with a check -/

/-- The content of a body succeeds when it does so by itself and takes what is announced. -/
theorem boundedContent_good {e : DecodeM (Decoded Value)} {t t' : DecodeState} {p : Nat} {v : Value}
    (hjumps : t.jumps = [p]) :
    (boundedContent e).run t = .ok ((StatusCode.good, v), t') ↔
      e.run { t with jumps := [] } = .ok ((StatusCode.good, v), t') ∧
        announcedLength t.src p = some (t'.pos - t.pos) := by
  have hrun : (boundedContent e).run t = (e >>= fun r => get >>= fun now =>
      if r.1 = StatusCode.good ∧ announcedLength t.src p ≠ some (now.pos - t.pos) then
        pure (StatusCode.badDecodingError, r.2)
      else pure (r.1, r.2)).run { t with jumps := [] } := by
    unfold boundedContent
    rw [run_get_bind, hjumps]
    rfl
  rw [hrun]
  constructor
  · intro h
    obtain ⟨⟨r, x⟩, t1, he, hrest⟩ := run_bind_ok.mp h
    rw [run_get_bind] at hrest
    obtain ⟨-, hbad⟩ | ⟨hagree, hpure⟩ := run_ite_cases hrest
    · obtain ⟨heq, -⟩ := run_pure_ok.mp hbad
      cases heq
    · obtain ⟨heq, rfl⟩ := run_pure_ok.mp hpure
      obtain ⟨rfl, rfl⟩ := Prod.mk.inj heq
      exact ⟨he, by_contra fun hne => hagree ⟨rfl, hne⟩⟩
  · rintro ⟨he, hlength⟩
    rw [run_bind_of_ok he, run_get_bind, if_neg fun hboth => hboth.2 hlength]
    rfl

/-- The length announces as much as has been read. -/
theorem announced_iff {s s' : DecodeState} {jumps : List Nat} (hin : s.pos + 4 ≤ s.src.length)
    (h : DecodeState.Advances { s with pos := s.pos + 4, jumps := jumps } s') :
    announcedLength s.src s.pos = some (s'.pos - (s.pos + 4)) ↔
      (s.src.drop (s.pos + 4)).length = Extent.lengthOf s.ahead + s'.ahead.length ∧
        Extent.lengthOf s.ahead < 2147483648 := by
  have hlength : s'.src.length = s.src.length := h.length_eq
  have hle : s.pos + 4 ≤ s'.pos := h.pos_le
  have hinside : s'.pos ≤ s'.src.length := h.inside hin
  have hmax : int32Max = 2147483647 := rfl
  unfold announcedLength DecodeState.ahead
  rw [List.length_drop, List.length_drop, hlength,
    show LittleEndian.toNat ((s.src.drop s.pos).take 4) =
      Extent.lengthOf (s.src.drop s.pos) from rfl]
  dsimp only
  split
  · rw [Option.some.injEq]
    omega
  · constructor
    · intro hnone
      cases hnone
    · intro htrue
      omega

theorem frames_body {d e : DecodeM (Decoded Value)} {k : Extent} (h : Frames d e k) :
    Frames (jumpOverLength >>= fun _ => d) (jumpOverLength >>= fun _ => boundedContent e)
      (Extent.body k) := by
  intro s t v s' hst hjumps hrun
  have hpending : t.jumps ++ [t.pos] = [t.pos] := by rw [hjumps, List.nil_append]
  have hiff (w t') :=
    @boundedContent_good e { t with pos := t.pos + 4, jumps := t.jumps ++ [t.pos] }
    t' t.pos w hpending
  have hcontent := h { s with pos := s.pos + 4, jumps := s.jumps ++ [s.pos] }
    { t with pos := t.pos + 4, jumps := [] } v s'
    ⟨hst.src_eq, hst.start_eq, congrArg (· + 4) hst.pos_eq, hst.allocations_eq⟩ rfl hrun
  by_cases hin : s.pos + 4 ≤ s.src.length
  · have hskip : Extent.skip 4 s.ahead = some (s.src.drop (s.pos + 4)) := by
      unfold Extent.skip ahead
      rw [if_pos (by rw [List.length_drop]; omega), List.drop_drop]
    cases hcontent with
    | mismatch hk hfails =>
      refine .mismatch ?_ fun w t' hall => hfails w t' ((hiff w t').mp hall).1
      rw [Extent.body, hskip, Option.bind_some]
      exact congrArg (Option.bind · _) hk
    | agrees hk hadvances t' ht' hst' hjumps' =>
      replace hk : k (s.src.drop (s.pos + 4)) = some s'.ahead := hk
      have hsame : announcedLength t.src t.pos = some (t'.pos - (t.pos + 4)) ↔
          announcedLength s.src s.pos = some (s'.pos - (s.pos + 4)) := by
        rw [hst.src_eq, hst.pos_eq, hst'.pos_eq]
      by_cases hagree : announcedLength s.src s.pos = some (s'.pos - (s.pos + 4))
      · refine .agrees ?_ ⟨hadvances.length_eq, Nat.le_of_add_right_le hadvances.pos_le,
          fun _ => hadvances.inside hin⟩ t' ((hiff v t').mpr ⟨ht', hsame.mpr hagree⟩) hst' hjumps'
        rw [Extent.body, hskip, Option.bind_some, hk, Option.bind_some,
          if_pos ((announced_iff hin hadvances).mp hagree)]
      · refine .mismatch ?_ fun w t'' hall => ?_
        · rw [Extent.body, hskip, Option.bind_some, hk, Option.bind_some,
            if_neg fun htrue => hagree ((announced_iff hin hadvances).mpr htrue)]
        · obtain ⟨hrun', hlength⟩ := (hiff w t'').mp hall
          cases ht'.symm.trans hrun'
          exact hagree (hsame.mp hlength)
  · refine .mismatch ?_ fun w t' hall => ?_
    · unfold Extent.body Extent.skip ahead
      rw [if_neg (by rw [List.length_drop]; omega), Option.bind_none]
    · have hlength := ((hiff w t').mp hall).2
      unfold announcedLength at hlength
      dsimp only at hlength
      rw [if_neg (by rw [hst.src_eq, hst.pos_eq]; omega)] at hlength
      cases hlength

/-- A value that nothing has been announced for. -/
theorem frames_boundedContent {d e : DecodeM (Decoded Value)} {k : Extent} (h : Frames d e k) :
    Frames d (boundedContent e) k := by
  intro s t v s' hst hjumps hrun
  have hsame : (boundedContent e).run t = e.run t := by
    unfold boundedContent
    rw [run_get_bind, hjumps]
    rfl
  cases h s t v s' hst hjumps hrun with
  | mismatch hk hfails => exact .mismatch hk fun w t' hall => hfails w t' (hsame ▸ hall)
  | agrees hk hadvances t' ht' hst' hjumps' =>
    exact .agrees hk hadvances t' (hsame.trans ht') hst' hjumps'

/-- The decoders of what is nested, where a length has been jumped over and where none has been. -/
structure NestedFrames (d e : DataType → DecodeM (Decoded Value)) (k : DataType → Extent) :
    Prop where
  plain : ∀ type, Frames (d type) (e type) (k type)
  behind : ∀ type, Frames (jumpOverLength >>= fun _ => d type) (jumpOverLength >>= fun _ => e type)
    (Extent.body (k type))

/-! ## The header of a wrapped structure -/

theorem numericNodeId_content {b : UInt8} {s s' : DecodeState} {n : NodeId}
    (h : (nodeIdDecodeBinaryContent env b).run s = .ok ((StatusCode.good, n), s')) :
    Extent.numericNodeId (b :: s.ahead) = if isNumeric n then some (n, s'.ahead) else none := by
  unfold nodeIdDecodeBinaryContent at h
  split at h
  · next hb =>
    subst hb
    obtain ⟨x, hx, rfl⟩ := run_decodeMap_good h
    rw [(ahead_of_byte hx).1]
    rfl
  split at h
  · next hb =>
    subst hb
    obtain ⟨⟨ns, x⟩, hparts, rfl⟩ := run_decodeMap_good h
    obtain ⟨s1, hns, hx⟩ := run_decodeBoth_good hparts
    obtain ⟨bytes, hvalue, hahead⟩ := ahead_of_primitive hx
    obtain ⟨u, v, huv⟩ : ∃ u v, bytes.toList = [u, v] := by
      match bytes.toList, bytes.length_toList with
      | [u, v], _ => exact ⟨u, v, rfl⟩
    rw [huv] at hvalue hahead
    rw [(ahead_of_byte hns).1, hahead, show x = _ from hvalue]
    rfl
  split at h
  · next hb =>
    subst hb
    obtain ⟨⟨ns, x⟩, hparts, rfl⟩ := run_decodeMap_good h
    obtain ⟨s1, hns, hx⟩ := run_decodeBoth_good hparts
    obtain ⟨bytes, hvalue, hahead⟩ := ahead_of_primitive hns
    obtain ⟨bytes', hvalue', hahead'⟩ := ahead_of_primitive hx
    obtain ⟨u, v, huv⟩ : ∃ u v, bytes.toList = [u, v] := by
      match bytes.toList, bytes.length_toList with
      | [u, v], _ => exact ⟨u, v, rfl⟩
    obtain ⟨a, b, c, d, habcd⟩ : ∃ a b c d, bytes'.toList = [a, b, c, d] := by
      match bytes'.toList, bytes'.length_toList with
      | [a, b, c, d], _ => exact ⟨a, b, c, d, rfl⟩
    rw [huv] at hvalue hahead
    rw [habcd] at hvalue' hahead'
    rw [hahead, hahead', show ns = _ from hvalue, show x = _ from hvalue']
    rfl
  -- no other encoding byte comes with a number
  split at h
  · next hb =>
    subst hb
    obtain ⟨x, -, rfl⟩ := run_decodeMap_good h
    rfl
  split at h
  · next hb =>
    subst hb
    obtain ⟨x, -, rfl⟩ := run_decodeMap_good h
    rfl
  split at h
  · next hb =>
    subst hb
    obtain ⟨x, -, rfl⟩ := run_decodeMap_good h
    rfl
  · cases h

/-- The header of a wrapped structure, as the decoder and as the format know it. -/
theorem knownHeader_ahead (tables : TypeTables) {s s1 s2 : DecodeState} {n : NodeId}
    {encoding : UInt8} (hnode : (nodeIdDecodeBinary env).run s = .ok ((StatusCode.good, n), s1))
    (hbyte : byteDecodeBinary.run s1 = .ok ((StatusCode.good, encoding), s2)) :
    Extent.knownHeader tables s.ahead =
      (if encoding = 1 then findDataTypeByBinary tables n else none).map fun type =>
        (type, s2.ahead) := by
  obtain ⟨b, s0, hb, hcontent⟩ := run_guard_good hnode
  unfold Extent.knownHeader
  rw [(ahead_of_byte hb).1, numericNodeId_content hcontent, (ahead_of_byte hbyte).1]
  by_cases hnum : isNumeric n = true
  · rw [if_pos hnum]
    by_cases hone : encoding = 1
    · subst hone
      rfl
    · rw [if_neg hone]
      split
      · next heq =>
        cases heq
        exact absurd rfl hone
      · rfl
  · rw [if_neg hnum]
    have hnone : findDataTypeByBinary tables n = none := by
      by_contra hsome
      obtain ⟨type, htype⟩ := Option.ne_none_iff_exists'.mp hsome
      exact hnum (isNumeric_of_find_some htype)
    rw [hnone, ite_self]
    rfl

variable {d e : DataType → DecodeM (Decoded Value)} {k : DataType → Extent}

theorem neutral_header : Neutral _ (decodeBoth (nodeIdDecodeBinary env) byteDecodeBinary)
    (decodeBoth (nodeIdDecodeBinary env) byteDecodeBinary) :=
  (congruentLeaf_neutral env).both (congruentLeaf_neutral env).nodeId
    (congruentLeaf_neutral env).byte

theorem frames_string : Frames (stringDecodeBinary env) (stringDecodeBinary env) Extent.string :=
  Frames.leaf covers_string (congruentLeaf_neutral env).string

/-- What stands behind the header of an ExtensionObject. -/
def Extent.objectContent (tables : TypeTables) (content : DataType → Extent) (typeId : NodeId)
    (encoding : UInt8) : Extent :=
  match if encoding = 1 then findDataTypeByBinary tables typeId else none with
  | some type => body (content type)
  | none => if encoding = 0 then some else string

theorem frames_objectContent (h : NestedFrames d e k) (typeId : NodeId) (encoding : UInt8) :
    Frames (if encoding = 1 then extensionObjectDecodeBinaryContent env d typeId
        else if encoding = 0 then pure (StatusCode.good, .encodedObject typeId .noBody)
        else if encoding = 2 then
          decodeMap (fun body => .encodedObject typeId (.xml body)) (stringDecodeBinary env)
        else pure (StatusCode.badDecodingError, zeroExtensionObject))
      (if encoding = 1 then extensionObjectDecodeBinaryContent env e typeId
        else if encoding = 0 then pure (StatusCode.good, .encodedObject typeId .noBody)
        else if encoding = 2 then
          decodeMap (fun body => .encodedObject typeId (.xml body)) (stringDecodeBinary env)
        else pure (StatusCode.badDecodingError, zeroExtensionObject))
      (Extent.objectContent env.toTypeTables k typeId encoding) := by
  unfold Extent.objectContent
  by_cases hone : encoding = 1
  · subst hone
    rw [if_pos rfl, if_pos rfl, if_pos rfl]
    unfold extensionObjectDecodeBinaryContent
    cases findDataTypeByBinary env.toTypeTables typeId with
    | none => exact frames_string.map _
    | some type =>
      apply Frames.allocated (by decide)
      exact (h.behind type).map (Value.decodedObject type.info)
  · rw [if_neg hone, if_neg hone, if_neg hone]
    apply Frames.ite (Frames.pure _)
    split
    · exact frames_string.map _
    · exact Frames.bad (by decide) _ _ _

theorem frames_extensionObject (h : NestedFrames d e k) :
    Frames (extensionObjectDecodeBinary env d) (extensionObjectDecodeBinary env e)
      (Extent.extensionObject env.toTypeTables k) := by
  intro s t v s' hst hjumps hrun
  obtain ⟨⟨retval, typeId, encoding⟩, s2, hheader, hrest⟩ := run_bind_ok.mp hrun
  obtain ⟨t2, ht2, hst2, hjumps2⟩ := neutral_header s t hst _ s2 hheader
  obtain ⟨-, hbad⟩ | ⟨hnum, hnumeric⟩ := run_ite_cases hrest
  · cases hbad
  obtain ⟨hbad, hgives⟩ | ⟨hgood, hcontent⟩ := run_ite_cases hnumeric
  · obtain ⟨heq, -⟩ := run_pure_ok.mp hgives
    exact absurd (Prod.mk.inj heq).1.symm hbad
  have hretval : retval = StatusCode.good := not_not.mp hgood
  obtain ⟨s1, hnode, hbyte⟩ := run_decodeBoth_good (hretval ▸ hheader)
  obtain ⟨hk, hadvances⟩ := covers_nodeId s typeId s1 hnode
  obtain ⟨hahead, hadvances'⟩ := ahead_of_byte hbyte
  have hextent : Extent.extensionObject env.toTypeTables k s.ahead =
      Extent.objectContent env.toTypeTables k typeId encoding s2.ahead := by
    unfold Extent.extensionObject Extent.objectContent
    rw [knownHeader_ahead env.toTypeTables hnode hbyte]
    cases if encoding = 1 then findDataTypeByBinary env.toTypeTables typeId else none with
    | some type => rfl
    | none =>
      dsimp only [Option.map_none]
      rw [Extent.both, hk, Option.bind_some, hahead]
      rfl
  refine Framed.after ht2 hextent (hadvances.trans hadvances') ?_
  dsimp only
  rw [if_neg hnum, if_neg hgood]
  exact frames_objectContent h typeId encoding s2 t2 v s' hst2 (hjumps2.trans hjumps) hcontent

/-- What becomes of the data that has been unwrapped. -/
def unwrappedData (type : DataType) (r : Decoded Value) : DecodeM (Decoded Variant) :=
  if r.1 ≠ StatusCode.good then pure (r.1, unsetVariant type) else pure
    (r.1, scalarVariant type r.2)

theorem unwrappedData_pass (type : DataType) (r : Decoded Value) :
    ∃ b, unwrappedData type r = pure (r.1, b) := by
  unfold unwrappedData
  split
  · exact ⟨_, rfl⟩
  · exact ⟨_, rfl⟩

theorem frames_unwrapContent (h : NestedFrames d e k) (type : DataType) :
    Frames (variantDecodeBinaryUnwrapContent env d type)
      (variantDecodeBinaryUnwrapContent env e type)
      (k type) :=
  Frames.allocated (by decide) ((h.plain type).pass (unwrappedData_pass type))

theorem frames_unwrapBody (h : NestedFrames d e k) (type : DataType) :
    Frames (jumpOverLength >>= fun _ => variantDecodeBinaryUnwrapContent env d type)
      (jumpOverLength >>= fun _ => variantDecodeBinaryUnwrapContent env e type)
      (Extent.body (k type)) :=
  @Frames.jump_allocated env _ (d type >>= unwrappedData type) (e type >>= unwrappedData type) _ _ _
    (by decide) ((h.behind type).pass (unwrappedData_pass type))

theorem frames_unwrapExtensionObject (h : NestedFrames d e k) :
    Frames (variantDecodeBinaryUnwrapExtensionObject env d)
      (variantDecodeBinaryUnwrapExtensionObject env e) (Extent.unwrapped env.toTypeTables k) := by
  intro s t v s' hst hjumps hrun
  unfold variantDecodeBinaryUnwrapExtensionObject at hrun
  rw [run_get_bind] at hrun
  obtain ⟨typeId, s1, hnode, hrest⟩ := run_guard_good hrun
  obtain ⟨encoding, s2, hbyte, hrest⟩ := run_guard_good hrest
  obtain ⟨t1, ht1, hst1, hjumps1⟩ := (congruentLeaf_neutral env).nodeId s t hst _ s1 hnode
  obtain ⟨t2, ht2, hst2, hjumps2⟩ := neutral_decodePrimitive _ _ _ s1 t1 hst1 _ s2 hbyte
  have hjumps2 : t2.jumps = [] := hjumps2.trans (hjumps1.trans hjumps)
  obtain ⟨-, hadvances⟩ := covers_nodeId s typeId s1 hnode
  obtain ⟨-, hadvances'⟩ := ahead_of_byte hbyte
  have hknown := knownHeader_ahead env.toTypeTables hnode hbyte
  have hrunt : (variantDecodeBinaryUnwrapExtensionObject env e).run t =
      (match if encoding = 1 then findDataTypeByBinary env.toTypeTables typeId else none with
        | some type => jumpOverLength >>= fun _ => variantDecodeBinaryUnwrapContent env e type
        | none => modify (fun s : DecodeState => { s with pos := t.pos }) >>= fun _ =>
          variantDecodeBinaryUnwrapContent env e (.builtin .extensionObject)).run t2 := by
    unfold variantDecodeBinaryUnwrapExtensionObject
    rw [run_get_bind]
    refine (run_guard_of_good ht1).trans ?_
    exact run_guard_of_good ht2
  dsimp only at hrest
  cases hfind : if encoding = 1 then findDataTypeByBinary env.toTypeTables typeId else none with
  | some type =>
    rw [hfind] at hrest hrunt hknown
    have hextent : Extent.unwrapped env.toTypeTables k s.ahead = Extent.body (k type) s2.ahead := by
      unfold Extent.unwrapped
      rw [hknown]
      rfl
    apply Framed.of_run hrunt hextent (hadvances.trans hadvances')
    exact frames_unwrapBody h type s2 t2 v s' hst2 hjumps2 hrest
  | none =>
    rw [hfind] at hrest hrunt hknown
    obtain ⟨hsrc, -⟩ := leaves_nodeIdDecodeBinary s _ s1 hnode
    obtain ⟨hsrc', -⟩ := leaves_decodePrimitive s1 _ s2 hbyte
    have hahead : s.ahead = DecodeState.ahead { s2 with pos := s.pos } := by
      unfold ahead
      rw [hsrc', hsrc]
    have hextent : Extent.unwrapped env.toTypeTables k s.ahead =
        k (.builtin .extensionObject) (DecodeState.ahead { s2 with pos := s.pos }) := by
      unfold Extent.unwrapped
      rw [hknown, hahead]
      rfl
    have hback : s.Advances { s2 with pos := s.pos } :=
      ⟨congrArg List.length (hsrc'.trans hsrc), Nat.le_refl _, fun hs =>
        by rw [hsrc', hsrc]; exact hs⟩
    have hst' : DecodeState.Similar { s2 with pos := s.pos } { t2 with pos := t.pos } :=
      ⟨hst2.src_eq, hst2.start_eq, hst.pos_eq, hst2.allocations_eq⟩
    have hrunt : (variantDecodeBinaryUnwrapExtensionObject env e).run t =
        (variantDecodeBinaryUnwrapContent env e (.builtin .extensionObject)).run
          { t2 with pos := t.pos } := hrunt
    exact Framed.of_run hrunt hextent hback
      (frames_unwrapContent h _ _ _ v s' hst' hjumps2 hrest)

/-! ## The whole decoder -/

theorem frames_variant (h : NestedFrames d e k) :
    Frames (variantDecodeBinary env d) (variantDecodeBinary env e)
      (Extent.variant env.toTypeTables k) := by
  apply Frames.byte
  intro encoding
  apply Frames.ite (Frames.pure _)
  apply Frames.ite (Frames.bad (by decide) _ _ _)
  dsimp only
  cases Builtin.ofIndex ((encoding &&& 0x3F).toNat - 1) with
  | none => exact Frames.bad (by decide) _ _ _
  | some b =>
    have hdimensions : Frames (dimensionsDecodeBinary env) (dimensionsDecodeBinary env) _ :=
      Frames.leaf covers_dimensions (congruentLeaf_neutral env).dimensions
    apply Frames.ite ((((h.plain _).array _).both hdimensions.decodeIf).map _)
    apply Frames.ite (frames_unwrapExtensionObject h)
    exact Frames.allocated (by decide) ((h.plain _).map _)

theorem frames_dataValue (h : NestedFrames d e k) :
    Frames (dataValueDecodeBinary env d) (dataValueDecodeBinary env e)
      (Extent.dataValue env.toTypeTables k) := by
  have hleaf := congruentLeaf_neutral env
  have hfixed {α : Type} (size : Nat) (fromBytes : Vector UInt8 size → α) (zero : α) (c : Bool) :
      Frames (decodeField c (decodePrimitive size fromBytes zero))
        (decodeField c (decodePrimitive size fromBytes zero))
          (Extent.skipIf c (Extent.skip size)) :=
    Frames.leaf (Covers.primitive _ _ _).field (hleaf.field (hleaf.primitive _ _ _))
  have hpicoseconds (c : Bool) : Frames (decodeField c picosecondsDecodeBinary)
      (decodeField c picosecondsDecodeBinary) (Extent.skipIf c (Extent.skip 2)) :=
    Frames.leaf ((Covers.primitive _ _ _).map _).field (hleaf.field (hleaf.map _ hleaf.uint16))
  apply Frames.byte
  intro mask
  exact (((((((frames_variant h).decodeIf.both (hfixed _ _ _ _)).both (hfixed _ _ _ _)).both
    (hpicoseconds _)).both (hfixed _ _ _ _)).both (hpicoseconds _)).map _)

theorem frames_builtin (h : NestedFrames d e k) (fuel : Nat) (b : Builtin) :
    Frames (builtinDecodeBinary env d fuel b) (builtinDecodeBinary env e fuel b)
      (Extent.builtin env.toTypeTables k fuel b) := by
  have hleaf := congruentLeaf_neutral env
  have hfixed {α : Type} (size : Nat) (fromBytes : Vector UInt8 size → α) (zero : α)
      (f : α → Value) :
      Frames (decodeMap f (decodePrimitive size fromBytes zero))
        (decodeMap f (decodePrimitive size fromBytes zero)) (Extent.skip size) :=
    (Frames.leaf (Covers.primitive _ _ _) (hleaf.primitive _ _ _)).map f
  cases b with
  | boolean => exact hfixed _ _ _ _
  | sbyte => exact hfixed _ _ _ _
  | byte | int16 | uint16 | int32 | uint32 | int64 | uint64 | float | double => exact hfixed _ _ _ _
  | string => exact frames_string.map _
  | dateTime => exact hfixed _ _ _ _
  | guid => exact (Frames.leaf covers_guid hleaf.guid).map _
  | byteString | xmlElement => exact frames_string.map _
  | nodeId => exact (Frames.leaf covers_nodeId hleaf.nodeId).map _
  | expandedNodeId => exact (Frames.leaf covers_expandedNodeId (neutral_expandedNodeId env)).map _
  | statusCode => exact hfixed _ _ _ _
  | qualifiedName =>
    have huint16 : Frames uint16DecodeBinary uint16DecodeBinary (Extent.skip 2) :=
      Frames.leaf (Covers.primitive _ _ _) hleaf.uint16
    rw [builtinDecodeBinary, builtinDecodeBinary]
    exact (huint16.both frames_string).map _
  | localizedText => exact (Frames.leaf covers_localizedText hleaf.localizedText).map _
  | extensionObject => exact frames_extensionObject h
  | dataValue => exact frames_dataValue h
  | variant => exact (frames_variant h).map _
  | diagnosticInfo =>
    exact (Frames.leaf (covers_diagnosticInfo fuel) (hleaf.diagnosticInfo neutral_fault fuel)).map _

mutual

theorem frames_entry (h : NestedFrames d e k) (fuel : Nat) : (type : DataType) →
    Frames (decodeBinaryEntry env d fuel type) (decodeBinaryEntry env e fuel type)
      (Extent.ofType env.toTypeTables k fuel type)
  | .builtin b => by
    rw [decodeBinaryEntry, decodeBinaryEntry, Extent.ofType]
    exact frames_builtin h fuel b
  | .enumeration _ _ => by
    rw [decodeBinaryEntry, decodeBinaryEntry, Extent.ofType]
    exact (Frames.leaf (Covers.primitive _ _ _) (congruentLeaf_neutral env).uint32).map _
  | .structure _ _ _ members => by
    rw [decodeBinaryEntry, decodeBinaryEntry, Extent.ofType]
    exact (frames_internal h fuel members).map _

theorem frames_internal (h : NestedFrames d e k) (fuel : Nat) : (members : MemberTypes) →
    Frames (decodeBinaryInternal env d fuel members) (decodeBinaryInternal env e fuel members)
      (Extent.ofMembers env.toTypeTables k fuel members)
  | .nil => by
    rw [decodeBinaryInternal, decodeBinaryInternal, Extent.ofMembers]
    exact Frames.pure _
  | .scalar type rest => by
    rw [decodeBinaryInternal, decodeBinaryInternal, Extent.ofMembers]
    exact ((frames_entry h fuel type).both (frames_internal h fuel rest)).map _
  | .array type rest => by
    rw [decodeBinaryInternal, decodeBinaryInternal, Extent.ofMembers]
    exact (((frames_entry h fuel type).array type).both (frames_internal h fuel rest)).map _

end

theorem nestedFrames_boundedJumpTable (fuel : Nat) :
    NestedFrames (decodeBinaryJumpTable env fuel) (boundedJumpTable env fuel)
      (Extent.value env.toTypeTables fuel) := by
  induction fuel with
  | zero =>
    constructor
    · intro type s t v s' _ _ hrun
      cases hrun
    · intro type s t v s' _ _ hrun
      cases hrun
  | succ fuel ih =>
    constructor
    · exact fun type => frames_boundedContent (frames_entry ih (fuel + 1) type)
    · exact fun type => frames_body (frames_entry ih (fuel + 1) type)

/-- What `UA_decodeBinary` accepts, it accepts with every body consumed as announced exactly when
the lengths that are announced are true: then the decoder with the check gives the same result, and
else it reports an error. -/
theorem boundedDecodeBinary_iff {fuel : Nat} {src : List UInt8} {offset : Nat} {type : DataType}
    {result : DecodeResult} {s : DecodeState}
    (h : decodeBinary env fuel src offset type = .ok (result, s))
    (hgood : result.status = StatusCode.good) :
    (∃ s', boundedDecodeBinary env fuel src offset type = .ok (result, s')) ↔
      LengthsTrue env.toTypeTables fuel src offset type := by
  obtain ⟨status, p, dst⟩ := result
  dsimp only at hgood
  subst hgood
  obtain ⟨hrun, rfl⟩ := decodeBinary_good.mp h
  have hsame : (decodeStart src offset).Similar (decodeStart src offset) := ⟨rfl, rfl, rfl, rfl⟩
  unfold LengthsTrue
  cases (nestedFrames_boundedJumpTable fuel).plain type _ _ dst s hsame rfl hrun with
  | mismatch hk hfails =>
    rw [show Extent.value env.toTypeTables fuel type (src.drop offset) = none from hk]
    constructor
    · rintro ⟨s', hbounded⟩
      exact absurd (result_good.mp hbounded).1 (hfails dst s')
    · intro hfalse
      cases hfalse
  | agrees hk _ t' ht' hst' _ =>
    rw [show Extent.value env.toTypeTables fuel type (src.drop offset) = some s.ahead from hk]
    exact ⟨fun _ => rfl, fun _ => ⟨t', result_good.mpr ⟨ht', hst'.pos_eq.symm⟩⟩⟩

/-- A wrapped DiscoveryConfiguration, whose body has no bytes. -/
def wrappedObject (length : UInt8) : List UInt8 := [0x01, 0x00, 0x64, 0x32, 0x01, length, 0, 0, 0]

theorem boundedDecodeBinary_wrappedObject :
    ∃ result s, decodeBinary discoveryEnv 10 (wrappedObject 0) 0 (.builtin .extensionObject) =
        .ok (result, s) ∧ result.status = StatusCode.good ∧
      ((∃ s', boundedDecodeBinary discoveryEnv 10 (wrappedObject 0) 0 (.builtin .extensionObject) =
          .ok (result, s')) ↔
        LengthsTrue discoveryEnv.toTypeTables 10 (wrappedObject 0) 0 (.builtin .extensionObject)) :=
  ⟨_, _, rfl, rfl, boundedDecodeBinary_iff rfl rfl⟩

/-- Five bytes are announced and follow, but the next thing is decoded from in front of them. -/
theorem wrappedObject_five :
    ∃ result s, decodeBinary discoveryEnv 15 (wrappedObject 5 ++ [1, 2, 3, 4, 5]) 0
        (.builtin .extensionObject) = .ok (result, s) ∧
      result.status = StatusCode.good ∧ result.offset = 9 ∧
      announcedLength (wrappedObject 5 ++ [1, 2, 3, 4, 5]) 5 = some 5 ∧
      ¬ ∃ s', boundedDecodeBinary discoveryEnv 15 (wrappedObject 5 ++ [1, 2, 3, 4, 5]) 0
        (.builtin .extensionObject) = .ok (result, s') := by
  refine ⟨_, _, rfl, rfl, rfl, by decide, ?_⟩
  rintro ⟨s', h⟩
  cases h

end FactoryThing.Encoding
