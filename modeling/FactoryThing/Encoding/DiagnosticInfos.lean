import FactoryThing.Encoding.RoundTrip

/-!
# DiagnosticInfos on the wire

The encoder and the decoder of a DiagnosticInfo disagree about the encoding mask
(`src/ua_types_encoding_binary.c:1204-1274`): the encoder leaves out the bit of the inner status
code and puts the inner DiagnosticInfo at the bit that the decoder reads as the inner status code.
The five other fields come back; a DiagnosticInfo with one of the two inner ones never does.
-/

namespace FactoryThing.Encoding

open Stateful DecodeState

variable {α γ : Type} {n : Nat} {env : DecodeEnv}

theorem Reads.decodeBinary {fuel : Nat} {type : DataType} {bs : List UInt8} {Q : Value → Prop}
    (h : Reads n (decodeBinaryJumpTable env fuel type) bs (Good Q)) (before : List UInt8)
    {after : List UInt8} (hn : n ≤ after.length) :
    ∃ dst s, decodeBinary env fuel (before ++ (bs ++ after)) before.length type =
      .ok (⟨StatusCode.good, before.length + bs.length, dst⟩, s) ∧ Q dst := by
  have hat : (decodeStart (before ++ (bs ++ after)) before.length).At (bs ++ after) := by
    refine ⟨Nat.le_refl _, ?_, List.drop_left⟩
    show before.length ≤ (before ++ (bs ++ after)).length
    rw [List.length_append]
    exact Nat.le_add_right _ _
  obtain ⟨⟨r, dst⟩, s, hrun, ⟨hr, hq⟩, -, hpos⟩ := h _ _ hat hn
  dsimp only at hr
  subst hr
  exact ⟨dst, s, decodeBinary_good.mpr ⟨hrun, hpos.symm⟩, hq⟩

/-- The bytes that were written come back as the DiagnosticInfo, wherever they stand and whatever
follows them: the decoder succeeds, the value is equal to what it was (null and empty strings count
as equal), and just these bytes are consumed. -/
def SurvivesTheWire (d : DiagnosticInfo) (written : List UInt8) : Prop :=
  ∀ (env : DecodeEnv) (before after : List UInt8) (fuel : Nat), (∀ k, env.calloc k = true) →
    written.length + after.length < fuel →
    ∃ d' s, decodeBinary env fuel (before ++ (written ++ after)) before.length
        (.builtin .diagnosticInfo) =
          .ok (⟨StatusCode.good, before.length + written.length, .diagnosticInfo d'⟩, s) ∧
      nullInfo d' = nullInfo d

def diagnosticInfoMask : DiagnosticInfo → UInt8
  | .mk symbolicId namespaceUri localizedText locale additionalInfo _ inner =>
    maskBit symbolicId 0x01 ||| maskBit namespaceUri 0x02 ||| maskBit localizedText 0x04 |||
      maskBit locale 0x08 ||| maskBit additionalInfo 0x10 ||| maskBit inner 0x20

theorem mask_bits (a b c d e f : Bool) :
    let mask : UInt8 := (if a then 0x01 else 0) ||| (if b then 0x02 else 0) |||
      (if c then 0x04 else 0) ||| (if d then 0x08 else 0) ||| (if e then 0x10 else 0) |||
      (if f then 0x20 else 0)
    decide (mask &&& 0x01 ≠ 0) = a ∧ decide (mask &&& 0x02 ≠ 0) = b ∧
      decide (mask &&& 0x04 ≠ 0) = c ∧ decide (mask &&& 0x08 ≠ 0) = d ∧
      decide (mask &&& 0x10 ≠ 0) = e ∧ decide (mask &&& 0x20 ≠ 0) = f ∧ mask &&& 0x40 = 0 := by
  revert a b c d e f
  decide +kernel

theorem diagnosticInfoMask_bits {symbolicId namespaceUri localizedText locale status :
    Option UInt32}
    {additionalInfo : Option UaString} {inner : Option DiagnosticInfo} {mask : UInt8}
    (h : mask = diagnosticInfoMask
      (.mk symbolicId namespaceUri localizedText locale additionalInfo status inner)) :
    decide (mask &&& 0x01 ≠ 0) = symbolicId.isSome ∧
      decide (mask &&& 0x02 ≠ 0) = namespaceUri.isSome ∧
      decide (mask &&& 0x04 ≠ 0) = localizedText.isSome ∧
      decide (mask &&& 0x08 ≠ 0) = locale.isSome ∧
      decide (mask &&& 0x10 ≠ 0) = additionalInfo.isSome ∧
      decide (mask &&& 0x20 ≠ 0) = inner.isSome ∧ mask &&& 0x40 = 0 := by
  rw [h]
  exact mask_bits _ _ _ _ _ _

theorem bytes_diagnosticInfoScript (symbolicId namespaceUri localizedText locale : Option UInt32)
    (additionalInfo : Option UaString) :
    (diagnosticInfoScript
        (.mk symbolicId namespaceUri localizedText locale additionalInfo none none)).bytes =
      [diagnosticInfoMask
        (.mk symbolicId namespaceUri localizedText locale additionalInfo none none)] ++
      ((fieldScript symbolicId uint32Script).bytes ++
        (fieldScript namespaceUri uint32Script).bytes ++
        (fieldScript localizedText uint32Script).bytes ++ (fieldScript locale uint32Script).bytes ++
        (fieldScript additionalInfo stringScript).bytes ++ []) := by
  simp only [diagnosticInfoScript, Script.bytes, fieldScript, List.append_assoc, List.append_nil,
    byteScript, diagnosticInfoMask]

theorem head_diagnosticInfoScript (d : DiagnosticInfo) :
    ∃ rest, (diagnosticInfoScript d).bytes = [diagnosticInfoMask d] ++ rest := by
  cases d with
  | mk symbolicId namespaceUri localizedText locale additionalInfo innerStatusCode inner =>
    cases inner with
    | none =>
      exact ⟨_, rfl⟩
    | some d =>
      exact ⟨_, rfl⟩

theorem reads_field {field : Option α} {sc : α → Script} {decode : DecodeM (Decoded α)}
    (f : α → γ) (h : ∀ x, field = some x → Reads n decode (sc x).bytes (Good fun y => f y = f x)) :
    Reads n (decodeField field.isSome decode) (fieldScript field sc).bytes
      (Good fun field' => field'.map f = field.map f) := by
  cases field with
  | none => exact reads_pure ⟨rfl, rfl⟩
  | some x =>
    apply Reads.map
    apply (h x rfl).mono (Nat.le_refl n)
    rintro ⟨r, y⟩ ⟨hr, hy⟩
    exact ⟨hr, congrArg some hy⟩

theorem reads_uint32Field (field : Option UInt32) :
    Reads n (decodeField field.isSome uint32DecodeBinary) (fieldScript field uint32Script).bytes
      (Good (· = field)) := by
  have h : Reads n (decodeField field.isSome uint32DecodeBinary)
      (fieldScript field uint32Script).bytes (Good fun field' => field'.map id = field.map id) :=
    reads_field id fun x _ => reads_uint32DecodeBinary x
  simp only [Option.map_id_fun, id_eq] at h
  exact h

theorem reads_diagnosticInfoDecodeBinary (halloc : ∀ k, env.calloc k = true) {d : DiagnosticInfo}
    (hinner : NothingInner d) (hfree : (diagnosticInfoScript d).FailFree) (fuel : Nat) :
    Reads n (diagnosticInfoDecodeBinary env (fuel + 1)) (diagnosticInfoScript d).bytes
      (Good fun d' => nullInfo d' = nullInfo d) := by
  obtain ⟨symbolicId, namespaceUri, localizedText, locale, additionalInfo, status, inner⟩ := d
  obtain ⟨rfl, rfl⟩ := hinner
  have hinfo : ∀ s, additionalInfo = some s → RegularString s := by
    rintro s rfl
    obtain ⟨⟨⟨-, hinfo⟩, -⟩, -⟩ := hfree
    exact failFree_stringScript.mp hinfo
  rw [bytes_diagnosticInfoScript]
  apply (reads_byteDecodeBinary _).bind (Nat.zero_le _)
  rintro ⟨r, mask⟩ ⟨hr, hmask⟩
  obtain ⟨h1, h2, h3, h4, h5, h6, h7⟩ := diagnosticInfoMask_bits hmask
  dsimp only at hr h1 h2 h3 h4 h5 h6 h7 ⊢
  subst hr
  rw [if_neg (not_not_intro rfl), h1, h2, h3, h4, h5, h6]
  have hstring : Reads 0 (decodeField additionalInfo.isSome (stringDecodeBinary env))
      (fieldScript additionalInfo stringScript).bytes
      (Good fun field => field.map nullString = additionalInfo.map nullString) := by
    apply reads_field
    intro s hs
    apply (reads_stringDecodeBinary halloc (hinfo s hs)).mono (Nat.le_refl 0)
    rintro ⟨r, s'⟩ ⟨hr, rfl⟩
    exact ⟨hr, nullString_decodedString s⟩
  have hnone : Reads n (decodeField false uint32DecodeBinary) [] (Good (· = none)) :=
    reads_pure ⟨rfl, rfl⟩
  have hfields := (((((reads_uint32Field symbolicId).both (Nat.zero_le _)
    (reads_uint32Field namespaceUri)).both (Nat.zero_le _) (reads_uint32Field localizedText)).both
    (Nat.zero_le _) (reads_uint32Field locale)).both (Nat.zero_le _) hstring).both
    (Nat.zero_le _) hnone
  apply hfields.bind_nil
  rintro ⟨r, ⟨⟨⟨⟨a, b⟩, c⟩, d⟩, e⟩, f⟩ ⟨hr, ⟨⟨⟨⟨ha, hb⟩, hc⟩, hd⟩, he⟩, hf⟩
  subst hr ha hb hc hd hf
  rw [if_pos h7]
  refine reads_pure ⟨rfl, ?_⟩
  show nullInfo (.mk a b c d e none none) = nullInfo (.mk a b c d additionalInfo none none)
  rw [nullInfo, nullInfo, he]

theorem isSome_of_returns_field {c : Bool} {d : DecodeM (Decoded α)} {field : Option α}
    (h : Returns (decodeField c d) field) : field.isSome = c := by
  obtain ⟨rfl, hd⟩ | ⟨rfl, rfl⟩ := Returns.decodeIf h
  · obtain ⟨x, -, rfl⟩ := hd.map
    rfl
  · rfl

theorem inner_of_run {symbolicId namespaceUri localizedText locale status : Option UInt32}
    {additionalInfo : Option UaString} {inner : Option DiagnosticInfo} {d' : DiagnosticInfo}
    {rest : List UInt8} {fuel : Nat} {s s' : DecodeState}
    (hat : s.At ([diagnosticInfoMask
      (.mk symbolicId namespaceUri localizedText locale additionalInfo status inner)] ++ rest))
    (hrun : (diagnosticInfoDecodeBinary env (fuel + 1)).run s = .ok ((StatusCode.good, d'), s')) :
    ∃ a b c d e status', d' = .mk a b c d e status' none ∧ status'.isSome = inner.isSome := by
  obtain ⟨⟨r, mask⟩, s1, hbyte, ⟨hr, hmask⟩, -, -⟩ :=
    reads_byteDecodeBinary _ s rest hat (Nat.zero_le _)
  obtain ⟨-, -, -, -, -, hstatus, hinner⟩ := diagnosticInfoMask_bits hmask
  unfold diagnosticInfoDecodeBinary at hrun
  rw [run_bind_of_ok hbyte] at hrun
  dsimp only at hr hstatus hinner hrun
  subst hr
  obtain ⟨⟨r, ⟨⟨⟨⟨a, b⟩, c⟩, d⟩, e⟩, status'⟩, s2, hfields, hlast⟩ := run_bind_ok.mp hrun
  rw [if_pos hinner] at hlast
  obtain ⟨heq, -⟩ := run_pure_ok.mp hlast
  obtain ⟨rfl, rfl⟩ := heq
  have hret := Returns.both (p := (((((a, b), c), d), e), status')) ⟨s1, s2, hfields⟩
  exact ⟨a, b, c, d, e, status', rfl, (isSome_of_returns_field hret.2).trans hstatus⟩

theorem decodeBinaryJumpTable_diagnosticInfo (fuel : Nat) :
    decodeBinaryJumpTable env (fuel + 1) (.builtin .diagnosticInfo) =
      decodeMap .diagnosticInfo (diagnosticInfoDecodeBinary env (fuel + 1)) := by
  rfl

theorem nothingInner_of_run {d d' : DiagnosticInfo} {rest : List UInt8} {fuel : Nat}
    {s s' : DecodeState} (hat : s.At ((diagnosticInfoScript d).bytes ++ rest))
    (hrun : (diagnosticInfoDecodeBinary env (fuel + 1)).run s = .ok ((StatusCode.good, d'), s'))
    (hsame : nullInfo d' = nullInfo d) : NothingInner d := by
  obtain ⟨tail, hbytes⟩ := head_diagnosticInfoScript d
  obtain ⟨symbolicId, namespaceUri, localizedText, locale, additionalInfo, status, inner⟩ := d
  rw [hbytes, List.append_assoc] at hat
  obtain ⟨a, b, c, d, e, status', rfl, hstatus⟩ := inner_of_run hat hrun
  cases inner with
  | some inner =>
    simp only [nullInfo, DiagnosticInfo.mk.injEq] at hsame
    obtain ⟨-, -, -, -, -, -, hinner⟩ := hsame
    cases hinner
  | none =>
    simp only [nullInfo, DiagnosticInfo.mk.injEq] at hsame
    obtain ⟨-, -, -, -, -, rfl, -⟩ := hsame
    exact ⟨Option.not_isSome_iff_eq_none.mp (by rw [hstatus]; nofun), rfl⟩

theorem keeps_diagnosticInfo (halloc : ∀ k, env.calloc k = true) {d : DiagnosticInfo}
    (hfree : (diagnosticInfoScript d).FailFree) (fuel : Nat) :
    Keeps (NothingInner d) 0 (diagnosticInfoDecodeBinary env (fuel + 1))
      (diagnosticInfoScript d).bytes
      fun d' => nullInfo d' = nullInfo d where
  reads hinner := reads_diagnosticInfoDecodeBinary halloc hinner hfree fuel
  refuses _ _ hat hnot _ _ hrun hsame :=
    hnot ⟨nothingInner_of_run hat hrun hsame, Nat.zero_le _⟩

theorem nothingInner_of_survives {d : DiagnosticInfo}
    (h : SurvivesTheWire d (diagnosticInfoScript d).bytes) : NothingInner d := by
  obtain ⟨d', s, hdecode, hsame⟩ := h ⟨⟨[], []⟩, fun _ => true⟩ [] [] _ (fun _ => rfl)
    (Nat.lt_succ_self _)
  obtain ⟨hrun, -⟩ := decodeBinary_good.mp hdecode
  obtain ⟨d1, hrun, heq⟩ := run_decodeMap_good hrun
  cases heq
  have hat : (decodeStart ([] ++ ((diagnosticInfoScript d).bytes ++ [])) 0).At
      ((diagnosticInfoScript d).bytes ++ []) := ⟨Nat.le_refl _, Nat.zero_le _, rfl⟩
  exact nothingInner_of_run hat hrun hsame

/-- What the encoder wrote for a DiagnosticInfo survives the wire exactly when neither of the inner
fields is set. -/
theorem survivesTheWire_iff {H : Type} {fuel : Nat} (d : DiagnosticInfo) (handle : H) (length : Nat)
    (before : List UInt8) (s' : EncodeState H)
    (h : encodeBinary fuel none (.diagnosticInfo d) handle length before =
      .ok (StatusCode.good, s')) :
    (∃ written, s'.pos.before = before ++ written ∧ SurvivesTheWire d written) ↔
      NothingInner d := by
  obtain ⟨hfree, hbefore⟩ := encodeBinary_none_good h
  have hscript : (membersScript (Value.diagnosticInfo d).members).bytes =
      (diagnosticInfoScript d).bytes := List.append_nil _
  rw [hscript] at hbefore
  constructor
  · rintro ⟨written, hwritten, hsurvives⟩
    rw [hbefore, List.append_cancel_left_eq] at hwritten
    subst hwritten
    exact nothingInner_of_survives hsurvives
  · intro hinner
    refine ⟨_, hbefore, ?_⟩
    intro env before after fuel halloc hfuel
    obtain ⟨fuel, rfl⟩ := Nat.exists_eq_succ_of_ne_zero (Nat.ne_zero_of_lt hfuel)
    have hreads : Reads 0 (decodeBinaryJumpTable env (fuel + 1) (.builtin .diagnosticInfo))
        (diagnosticInfoScript d).bytes
        (Good fun v => ∃ d', v = .diagnosticInfo d' ∧ nullInfo d' = nullInfo d) := by
      rw [decodeBinaryJumpTable_diagnosticInfo]
      apply Reads.map
      apply (reads_diagnosticInfoDecodeBinary halloc hinner hfree.1 fuel).mono (Nat.le_refl 0)
      rintro ⟨r, d'⟩ ⟨hr, hsame⟩
      exact ⟨hr, d', rfl, hsame⟩
    obtain ⟨dst, s, hdecode, d', rfl, hsame⟩ :=
      hreads.decodeBinary before (Nat.zero_le after.length)
    exact ⟨d', s, hdecode, hsame⟩

def outerInfo : DiagnosticInfo := .mk (some 7) none none none (some (.mem [97])) none none

theorem survivesTheWire_outerInfo :
    (∃ written, [0x11, 7, 0, 0, 0, 1, 0, 0, 0, 97] = [] ++ written ∧
      SurvivesTheWire outerInfo written) ↔ NothingInner outerInfo :=
  survivesTheWire_iff outerInfo () 16 []
    ⟨0, some 16, ⟨0, [0x11, 7, 0, 0, 0, 1, 0, 0, 0, 97]⟩, ()⟩
    (show encodeBinary 1 none _ _ _ _ = _ from rfl)

def innerStatusInfo : DiagnosticInfo := .mk none none none none none (some 0x80010000) none

/-- The inner status code is written behind a mask of zero. Its four bytes are left in front of
whatever follows. -/
theorem innerStatus_lost :
    ∃ s', encodeBinary 1 none (.diagnosticInfo innerStatusInfo) () 16 [] =
        .ok (StatusCode.good, s') ∧
      s'.pos.before = [0, 0, 0, 1, 0x80] ∧
      (∃ s, decodeBinary discoveryEnv 6 [0, 0, 0, 1, 0x80] 0 (.builtin .diagnosticInfo) =
        .ok (⟨StatusCode.good, 1, .diagnosticInfo zeroDiagnosticInfo⟩, s)) ∧
      ¬ SurvivesTheWire innerStatusInfo [0, 0, 0, 1, 0x80] := by
  refine ⟨⟨0, some 16, ⟨0, [0, 0, 0, 1, 0x80]⟩, ()⟩, rfl, rfl, ⟨_, rfl⟩, ?_⟩
  intro hsurvives
  exact absurd (nothingInner_of_survives hsurvives).1 (by decide)

end FactoryThing.Encoding
