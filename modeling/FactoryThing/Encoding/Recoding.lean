import FactoryThing.Encoding.Regularity

/-!
# Decoded values are encoded and decoded again

`UA_encodeBinary` accepts what `UA_decodeBinary` returned, and `UA_decodeBinary` returns the same
value for its encoding, where the encoder stopped. What is left out is a DiagnosticInfo, and a
structure in an ExtensionObject whose size does not fit into the Int32 in front of it: the decoder
jumps over that size, but the encoder cannot write it (`src/ua_types_encoding_binary.c:886-889`,
`912-914`).
-/

namespace FactoryThing.Encoding

open Stateful DecodeState Script

variable {H : Type} {env env' : DecodeEnv} {tables : TypeTables}

theorem run_of_room (sc : Script) {fuel : Nat} {callback : Option (ExchangeEncodeBuffer H)}
    (hfuel : 0 < fuel) (hfree : sc.FailFree) {s : EncodeState H}
    (hroom : sc.bytes.length ≤ s.room) :
    (sc.run fuel callback).run s = .ok (StatusCode.good, s.write sc.bytes) := by
  obtain ⟨fuel, rfl⟩ := Nat.exists_eq_add_of_le' hfuel
  induction sc generalizing s with
  | done =>
    rw [Script.bytes, EncodeState.write_nil]
    rfl
  | write bytes =>
    rw [Script.bytes] at hroom
    rw [Script.run, run_encodePrimitive, if_neg (Nat.not_lt.mpr hroom)]
    rfl
  | copy unit mem =>
    rw [Script.bytes] at hroom
    refine run_arrayEncodeBinaryOverlayable_succ_ok.mpr ?_
    rw [if_neg (Nat.not_lt.mpr hroom)]
    exact ⟨rfl, rfl⟩
  | fail status bad => exact hfree.elim
  | failAfter sc status bad ih => exact hfree.elim
  | both a b iha ihb =>
    rw [Script.bytes, List.length_append] at hroom
    have ha := iha hfree.1 (s := s) (by omega)
    have hb := ihb hfree.2 (s := s.write a.bytes) (by rw [EncodeState.room_write]; omega)
    rw [EncodeState.write_write] at hb
    exact run_orStatus_ok.mpr ⟨_, _, ha, _, hb, rfl⟩
  | andThen a b iha ihb =>
    rw [Script.bytes, List.length_append] at hroom
    have ha := iha hfree.1 (s := s) (by omega)
    have hb := ihb hfree.2 (s := s.write a.bytes) (by rw [EncodeState.room_write]; omega)
    rw [EncodeState.write_write] at hb
    rw [Script.run, run_bind_of_ok ha, if_pos rfl]
    exact hb
  | retry sc ih =>
    refine run_encodeWithExchange_succ_ok.mpr ⟨_, _, ih hfree hroom, ?_⟩
    exact ⟨rfl, rfl⟩

theorem room_of_run_good {fuel : Nat} (sc : Script) {s s' : EncodeState H}
    (h : (sc.run fuel none).run s = .ok (StatusCode.good, s')) : sc.bytes.length ≤ s.room := by
  induction sc generalizing s s' with
  | done => exact Nat.zero_le _
  | write bytes =>
    rw [Script.run, run_encodePrimitive] at h
    split at h
    · simp at h
      exact absurd h.1 badEncodingLimitsExceeded_ne_good
    · next hfits => exact Nat.not_lt.mp hfits
  | copy unit mem =>
    cases fuel with
    | zero => exact (run_throw_ok.mp h).elim
    | succ fuel =>
      have hround := run_arrayEncodeBinaryOverlayable_succ_ok.mp h
      split at hround
      · obtain ⟨r1, s1, hx, hlast⟩ := hround
        obtain ⟨rfl, rfl⟩ := run_exchangeBuffer_none_ok.mp hx
        exact absurd hlast.1.symm badEncodingError_ne_good
      · next hfits => exact Nat.not_lt.mp hfits
  | fail status bad => exact absurd (run_pure_ok.mp h).1.symm bad
  | failAfter sc status bad ih =>
    obtain ⟨_, _, _, hlast⟩ := run_bind_ok.mp h
    exact absurd (run_pure_ok.mp hlast).1.symm bad
  | both a b iha ihb =>
    obtain ⟨r1, s1, ha, r2, hb, hr⟩ := run_orStatus_ok.mp h
    obtain ⟨rfl, rfl⟩ := or_eq_good.mp hr.symm
    have hroom := iha ha
    obtain ⟨-, rfl⟩ := run_good _ ha
    have hroom' := ihb hb
    rw [EncodeState.room_write] at hroom'
    rw [Script.bytes, List.length_append]
    omega
  | andThen a b iha ihb =>
    obtain ⟨r1, s1, ha, hrest⟩ := run_bind_ok.mp h
    split at hrest
    · next hr =>
      subst hr
      have hroom := iha ha
      obtain ⟨-, rfl⟩ := run_good _ ha
      have hroom' := ihb hrest
      rw [EncodeState.room_write] at hroom'
      rw [Script.bytes, List.length_append]
      omega
    · next hr => exact absurd (run_pure_ok.mp hrest).1.symm hr
  | retry sc ih => exact ih (encodeWithExchange_none_good h)

theorem run_none_good_iff {fuel : Nat} {sc : Script} (hfree : sc.FailFree)
    {s s' : EncodeState H} : (sc.run (fuel + 1) none).run s = .ok (StatusCode.good, s') ↔
      sc.bytes.length ≤ s.room ∧ s' = s.write sc.bytes := by
  constructor
  · exact fun h => ⟨room_of_run_good sc h, (run_good sc h).2⟩
  · rintro ⟨hroom, rfl⟩
    exact run_of_room sc (Nat.succ_pos fuel) hfree hroom

theorem encodeBinary_of_room {fuel : Nat} {callback : Option (ExchangeEncodeBuffer H)} {v : Value}
    (hfuel : 0 < fuel) (hfree : (script v).FailFree) (handle : H) {length : Nat}
    {before : List UInt8} (hroom : before.length + (script v).bytes.length ≤ length) :
    ∃ s, encodeBinary fuel callback v handle length before = .ok (StatusCode.good, s) ∧
      s.pos.before = before ++ (script v).bytes := by
  unfold encodeBinary
  rw [← run_membersScript, ← bytes_members]
  refine ⟨_, run_of_room _ hfuel ((failFree_members v).mpr hfree) ?_, rfl⟩
  rw [bytes_members]
  exact Nat.le_sub_of_add_le' hroom

/-- Whatever `UA_decodeBinary` returned, and holds no DiagnosticInfo and no structure too large to
be wrapped: `UA_encodeBinary` succeeds on it in every buffer that is large enough, and
`UA_decodeBinary` reads these bytes, wherever they stand and whatever follows them. It returns an
equal value and ends where the encoder ended. -/
theorem decode_encode_decode (henv : SameTables env env' tables) {fuel offset : Nat}
    {src : List UInt8} {type : DataType} {result : DecodeResult} {s : DecodeState}
    (h : decodeBinary env fuel src offset type = .ok (result, s))
    (hgood : result.status = StatusCode.good) (hplain : Plain result.dst) :
    ∃ bytes : List UInt8,
      (∀ (encodeFuel : Nat) (callback : Option (ExchangeEncodeBuffer H)) (handle : H) (length : Nat)
        (before : List UInt8), 0 < encodeFuel → before.length + bytes.length ≤ length →
        ∃ s', encodeBinary encodeFuel callback result.dst handle length before =
          .ok (StatusCode.good, s') ∧ s'.pos.before = before ++ bytes) ∧
      ∀ (decodeFuel : Nat) (before after : List UInt8), bytes.length < decodeFuel →
        filterNeed tables type result.dst ≤ after.length →
        ∃ result' t, decodeBinary env' decodeFuel (before ++ (bytes ++ after)) before.length type =
            .ok (result', t) ∧ result'.status = StatusCode.good ∧
          result'.offset = (before ++ bytes).length ∧ SameValue result'.dst result.dst := by
  obtain ⟨status, offset', dst⟩ := result
  dsimp only at hgood hplain
  subst hgood
  obtain ⟨hfirst, hsecond, halloc, hgen⟩ := henv
  subst hfirst
  obtain ⟨hrun, -⟩ := decodeBinary_good.mp h
  obtain ⟨hregular, hkept⟩ := regular_decodeBinaryJumpTable hgen fuel type dst ⟨_, _, hrun⟩
  obtain ⟨hfree, hcarried⟩ := hkept hplain
  refine ⟨(script dst).bytes, ?_, ?_⟩
  · intro encodeFuel callback handle length before hfuel hroom
    exact encodeBinary_of_room hfuel hfree handle hroom
  · intro decodeFuel before after hfuel hneed
    rw [← hsecond] at hregular hneed
    have hback := readsBack_decodeBinaryJumpTable halloc ((script dst).bytes.length + 1) decodeFuel
      hfuel type dst hregular hfree (Nat.lt_succ_self _)
    obtain ⟨dst', t, hdecode, hsame⟩ := (hback.reads hcarried).decodeBinary before hneed
    exact ⟨_, t, hdecode, rfl, List.length_append.symm, hsame⟩

theorem generated_builtins {type : DataType} (hnum : isNumeric type.info.typeId = true) :
    Generated ⟨(List.range 25).filterMap (fun i => (Builtin.ofIndex i).map .builtin) ++ [type], []⟩
    where
  first_boolean := rfl
  numeric type' h := by
    rcases h with h | h
    · rcases List.mem_append.mp h with h | h
      · obtain ⟨i, -, hi⟩ := List.mem_filterMap.mp h
        obtain ⟨b, -, rfl⟩ := Option.map_eq_some_iff.mp hi
        rfl
      · rw [List.mem_singleton.mp h]
        exact hnum
    · cases h

theorem sameTables_discoveryEnv : SameTables discoveryEnv discoveryEnv discoveryEnv.toTypeTables :=
  ⟨rfl, rfl, fun _ => rfl, @generated_builtins discoveryConfiguration rfl⟩

def wrappedVariant : List UInt8 := [0x16, 0x01, 0x00, 0x64, 0x32, 0x01, 0, 0, 0, 0]

theorem decodeBinary_wrappedVariant :
    decodeBinary discoveryEnv 2 wrappedVariant 0 (.builtin .variant) =
      .ok (⟨StatusCode.good, 10, .variant (.wrapped discoveryConfiguration.info (.structure .nil))⟩,
        ⟨wrappedVariant, 0, 10, 1, [6]⟩) := rfl

theorem decode_encode_decode_wrappedVariant :
    ∃ result s, decodeBinary discoveryEnv 2 wrappedVariant 0 (.builtin .variant) = .ok (result, s) ∧
      ∃ bytes : List UInt8,
        (∀ (encodeFuel : Nat) (callback : Option (ExchangeEncodeBuffer Unit)) (handle : Unit)
          (length : Nat) (before : List UInt8), 0 < encodeFuel →
          before.length + bytes.length ≤ length →
          ∃ s', encodeBinary encodeFuel callback result.dst handle length before =
            .ok (StatusCode.good, s') ∧ s'.pos.before = before ++ bytes) ∧
        ∀ (decodeFuel : Nat) (before after : List UInt8), bytes.length < decodeFuel →
          filterNeed discoveryEnv.toTypeTables (.builtin .variant) result.dst ≤ after.length →
          ∃ result' t, decodeBinary discoveryEnv decodeFuel (before ++ (bytes ++ after))
              before.length (.builtin .variant) = .ok (result', t) ∧
            result'.status = StatusCode.good ∧ result'.offset = (before ++ bytes).length ∧
            SameValue result'.dst result.dst :=
  ⟨_, _, decodeBinary_wrappedVariant,
    decode_encode_decode sameTables_discoveryEnv decodeBinary_wrappedVariant rfl
      ⟨by decide, trivial⟩⟩

def signatureData : DataType :=
  .structure ⟨⟨0, .numeric 456⟩, 32, 458⟩ false (by decide)
    (.scalar (.builtin .string) (.scalar (.builtin .byteString) .nil))

def signatureEnv : DecodeEnv where
  types := (List.range 25).filterMap (fun i => (Builtin.ofIndex i).map .builtin) ++ [signatureData]
  customTypes := []
  calloc := fun _ => true

/-- A wrapped SignatureData without an algorithm. -/
def signatureObject (signature : List UInt8) : List UInt8 :=
  [0x01, 0x00, 0xCA, 0x01, 0x01, 0, 0, 0, 0, 0xFF, 0xFF, 0xFF, 0xFF] ++
    (LittleEndian.toBytes 4 signature.length ++ signature)

def signatureValue (signature : List UInt8) : Value :=
  .structure (.scalar (.string .null) (.scalar (.string (.mem signature)) .nil))

theorem find_signatureData :
    findDataTypeByBinary signatureEnv.toTypeTables ⟨0, .numeric 458⟩ = some signatureData := rfl

theorem decodeBinary_signatureObject {signature : List UInt8} (hne : signature ≠ [])
    (hlen : signature.length ≤ int32Max) :
    ∃ result s, decodeBinary signatureEnv 2 (signatureObject signature) 0
        (.builtin .extensionObject) = .ok (result, s) ∧
      result.status = StatusCode.good ∧
      result.dst = .decodedObject signatureData.info (signatureValue signature) := by
  have halloc : ∀ k, signatureEnv.calloc k = true := fun _ => rfl
  have hdecoded : decodedString (.mem signature) = .mem signature := by
    cases signature with
    | nil => exact absurd rfl hne
    | cons b tail => rfl
  have hnil : Reads 0 (pure (StatusCode.good, Members.nil) : DecodeM _) [] (Good (· = .nil)) :=
    reads_pure ⟨rfl, rfl⟩
  have hstring : ∀ s, RegularString s → decodedString s = s →
      Reads 0 (decodeMap Value.string (stringDecodeBinary signatureEnv)) (stringScript s).bytes
        (Good (· = .string s)) := by
    intro s hs hsame
    apply Reads.map
    apply (reads_stringDecodeBinary halloc hs).mono (Nat.le_refl 0)
    rintro ⟨r, s'⟩ ⟨hr, hs'⟩
    exact ⟨hr, congrArg Value.string (hs'.trans hsame)⟩
  have hmember : ∀ {s ms d bs}, RegularString s → decodedString s = s →
    Reads 0 d bs (Good (· = ms)) →
      Reads 0 (decodeMap (fun p : Value × Members => Members.scalar p.1 p.2)
        (decodeBoth (decodeMap Value.string (stringDecodeBinary signatureEnv)) d))
        ((stringScript s).bytes ++ bs) (Good (· = .scalar (.string s) ms)) := by
    intro s ms d bs hs hsame hd
    apply Reads.map
    apply ((hstring s hs hsame).both (Nat.zero_le _) hd).mono (Nat.le_refl 0)
    rintro ⟨r, v, ms'⟩ ⟨hr, hv, hms⟩
    subst hr hv hms
    exact ⟨rfl, rfl⟩
  have hstructure : Reads 0 (decodeBinaryJumpTable signatureEnv 1 signatureData)
      ((stringScript .null).bytes ++ ((stringScript (.mem signature)).bytes ++ []))
      (Good (· = signatureValue signature)) := by
    apply Reads.map
    apply (hmember (Nat.zero_le _) rfl (@hmember (.mem signature) _ _ _ hlen hdecoded hnil)).mono
      (Nat.le_refl 0)
    rintro ⟨r, ms⟩ ⟨hr, hms⟩
    exact ⟨hr, congrArg Value.structure hms⟩
  have hobject :
    Keeps True 0 (extensionObjectDecodeBinary signatureEnv (decodeBinaryJumpTable signatureEnv 1))
      ((nodeIdScript ⟨0, .numeric 458⟩ 0).bytes ++ ([1] ++ ((uint32Script 0).bytes ++
        ((stringScript .null).bytes ++ ((stringScript (.mem signature)).bytes ++ [])))))
      (· = .decodedObject signatureData.info (signatureValue signature)) :=
    keeps_decodedObject halloc find_signatureData 0
      (hstructure.always.congr Iff.rfl fun data =>
        ⟨fun h => (Value.decodedObject.inj h).2, fun h => congrArg _ h⟩)
  have hbytes : signatureObject signature = (nodeIdScript ⟨0, .numeric 458⟩ 0).bytes ++
      ([1] ++ ((uint32Script 0).bytes ++ ((stringScript .null).bytes ++
        ((stringScript (.mem signature)).bytes ++ [])))) := by
    have hpos : (CArray.mem signature).length > 0 := List.length_pos_iff.mpr hne
    have hsignature : (stringScript (.mem signature)).bytes =
        LittleEndian.toBytes 4 signature.length ++ signature := by
      rw [stringScript, if_pos hpos, CArray.length_mem, bytes_arrayScript hlen, uint32Script,
        Script.bytes, toNat_ofNat_length hlen]
      rfl
    rw [hsignature, List.append_nil]
    rfl
  obtain ⟨dst, s, hrun, rfl⟩ := Reads.decodeBinary
    (show Reads 0 (decodeBinaryJumpTable signatureEnv 2 (.builtin .extensionObject)) _
      _ from hobject.reads trivial)
    [] (Nat.zero_le ([] : List UInt8).length)
  rw [List.append_nil, ← hbytes] at hrun
  exact ⟨_, s, hrun, rfl, rfl⟩

theorem generated_signatureEnv : Generated signatureEnv.toTypeTables :=
  @generated_builtins signatureData rfl

theorem signatureValue_refused {signature : List UInt8} (hlen : signature.length = int32Max)
    (fuel length : Nat) (before : List UInt8) (s' : EncodeState Unit) :
    encodeBinary fuel none (.decodedObject signatureData.info (signatureValue signature)) () length
      before ≠ .ok (StatusCode.good, s') := by
  intro hencode
  obtain ⟨hfree, -⟩ := encodeBinary_none_good hencode
  rw [failFree_members, script] at hfree
  have hsize : calcSizeBinary (signatureValue signature) > int32Max := by
    have hcalc : calcSizeBinary (signatureValue signature) = 4 + (4 + signature.length + 0) := rfl
    omega
  unfold decodedObjectScript at hfree
  rw [if_neg (by decide), if_pos hsize] at hfree
  exact hfree

/-- A signature of `UA_INT32_MAX` bytes is decoded, but its structure is four bytes too large for
the encoder. -/
theorem largeSignature_refused :
    Generated signatureEnv.toTypeTables ∧
      ∃ result s, decodeBinary signatureEnv 2 (signatureObject (List.replicate int32Max 0)) 0
          (.builtin .extensionObject) = .ok (result, s) ∧
        result.status = StatusCode.good ∧
        result.dst = .decodedObject signatureData.info
          (signatureValue (List.replicate int32Max 0)) ∧
        ∀ (fuel length : Nat) (before : List UInt8) (s' : EncodeState Unit),
          encodeBinary fuel none result.dst () length before ≠ .ok (StatusCode.good, s') := by
  have hlen : (List.replicate int32Max (0 : UInt8)).length = int32Max := List.length_replicate
  generalize List.replicate int32Max (0 : UInt8) = signature at hlen ⊢
  have hne : signature ≠ [] := by
    rintro rfl
    exact absurd hlen (by decide)
  obtain ⟨result, s, hdecode, hgood, hdst⟩ := decodeBinary_signatureObject hne hlen.le
  refine ⟨generated_signatureEnv, result, s, hdecode, hgood, hdst, ?_⟩
  intro fuel length before s'
  rw [hdst]
  exact signatureValue_refused hlen fuel length before s'

end FactoryThing.Encoding
