import FactoryThing.Encoding.Decode

/-!
# Relations that the decoder keeps

A relation between two computations that the building blocks of the decoder keep holds between any
function of the decoder run over related functions for what is nested. So two decoders that differ
in what they do about nested values are compared by their difference alone.
-/

namespace FactoryThing.Encoding

variable {env : DecodeEnv} {R : (α : Type) → DecodeM α → DecodeM α → Prop} {α β : Type}

/-- The building blocks of what does not jump over a length keep the relation `R`. -/
structure CongruentLeaf (env : DecodeEnv) (R : (α : Type) → DecodeM α → DecodeM α → Prop) :
    Prop where
  pure : ∀ {α : Type} (a : α), R α (pure a) (pure a)
  bind : ∀ {α β : Type} {d e : DecodeM α} {f g : α → DecodeM β},
    R α d e → (∀ a, R β (f a) (g a)) → R β (d >>= f) (e >>= g)
  primitive : ∀ {α : Type} (size : Nat) (fromBytes : Vector UInt8 size → α) (zero : α),
    R (Decoded α) (decodePrimitive size fromBytes zero) (decodePrimitive size fromBytes zero)
  tooShort : ∀ {α : Type} (size : Nat) {d d' e e' : DecodeM α}, R α d d' → R α e e' →
    R α (get >>= fun s => if s.tooShort size then d else e)
      (get >>= fun s => if s.tooShort size then d' else e')
  allocate : R Bool (allocate env) (allocate env)

/-- The building blocks of the decoder keep the relation `R`. -/
structure Congruent (env : DecodeEnv) (R : (α : Type) → DecodeM α → DecodeM α → Prop) : Prop
    extends CongruentLeaf env R where
  fault : ∀ {α : Type} (x : Fault), R α (throw x) (throw x)
  jump : R Unit jumpOverLength jumpOverLength
  position : ∀ {α : Type} {f g : DecodeState → DecodeM α},
    (∀ s t, t.pos = s.pos → R α (f s) (g t)) → R α (get >>= f) (get >>= g)
  seek : ∀ p : Nat, R PUnit (modify fun s => { s with pos := p }) (modify fun s =>
    { s with pos := p })

namespace CongruentLeaf

variable (h : CongruentLeaf env R)
include h

omit h in
theorem ite (_ : CongruentLeaf env R) {c : Prop} [Decidable c] {d d' e e' : DecodeM α}
    (hd : R α d d') (he : R α e e') :
    R α (if c then d else e) (if c then d' else e') := by
  split
  · exact hd
  · exact he

theorem both {a a' : DecodeM (Decoded α)} {b b' : DecodeM (Decoded β)} (ha : R (Decoded α) a a')
    (hb : R (Decoded β) b b') : R (Decoded (α × β)) (decodeBoth a b) (decodeBoth a' b') :=
  h.bind ha fun _ => h.bind hb fun _ => h.pure _

theorem map {a a' : DecodeM (Decoded α)} (f : α → β) (ha : R (Decoded α) a a') :
    R (Decoded β) (decodeMap f a) (decodeMap f a') :=
  h.bind ha fun _ => h.pure _

theorem decodeIf {c : Bool} {b b' : DecodeM (Decoded β)} {zero : β} (hb : R (Decoded β) b b') :
    R (Decoded β) (decodeIf c b zero) (decodeIf c b' zero) := by
  cases c with
  | false => exact h.pure _
  | true => exact hb

theorem field {c : Bool} {a a' : DecodeM (Decoded α)} (ha : R (Decoded α) a a') :
    R (Decoded (Option α)) (decodeField c a) (decodeField c a') :=
  h.decodeIf (h.map some ha)

theorem allocated {d d' e e' : DecodeM α} (hd : R α d d') (he : R α e e') :
    R α (Encoding.allocate env >>= fun success => if success then d else e)
      (Encoding.allocate env >>= fun success => if success then d' else e') :=
  h.bind h.allocate fun _ => h.ite hd he

theorem byte : R _ byteDecodeBinary byteDecodeBinary := h.primitive _ _ _

theorem uint16 : R _ uint16DecodeBinary uint16DecodeBinary := h.primitive _ _ _

theorem uint32 : R _ uint32DecodeBinary uint32DecodeBinary := h.primitive _ _ _

theorem uint64 : R _ uint64DecodeBinary uint64DecodeBinary := h.primitive _ _ _

theorem header (memSize : Nat) :
    R _ (arrayDecodeBinaryHeader env memSize) (arrayDecodeBinaryHeader env memSize) := by
  apply h.bind h.uint32
  rintro ⟨retval, signedLength⟩
  apply h.ite (h.pure _)
  apply h.ite (h.pure _)
  split
  · exact h.pure _
  · exact h.tooShort _ (h.pure _) (h.allocated (h.pure _) (h.pure _))

theorem string : R _ (stringDecodeBinary env) (stringDecodeBinary env) := by
  apply h.bind (h.header _)
  intro header
  cases header with
  | fails status => exact h.pure _
  | empty sentinel => exact h.pure _
  | allocated length length_pos =>
    apply h.bind (h.primitive _ _ _)
    rintro ⟨retval, mem⟩
    cases mem with
    | none => exact h.pure _
    | some mem => exact h.pure _

theorem dimensions : R _ (dimensionsDecodeBinary env) (dimensionsDecodeBinary env) := by
  apply h.bind (h.header _)
  intro header
  cases header with
  | fails status => exact h.pure _
  | empty sentinel => exact h.pure _
  | allocated length length_pos =>
    apply h.bind (h.primitive _ _ _)
    rintro ⟨retval, mem⟩
    cases mem with
    | none => exact h.pure _
    | some mem => exact h.pure _

theorem guid : R _ guidDecodeBinary guidDecodeBinary := by
  apply h.bind (h.both (h.both h.uint32 h.uint16) h.uint16)
  rintro ⟨retval, _⟩
  apply h.bind (h.primitive _ _ _)
  rintro ⟨status, data4⟩
  exact h.ite (h.pure _) (h.pure _)

theorem nodeId : R _ (nodeIdDecodeBinary env) (nodeIdDecodeBinary env) := by
  apply h.bind h.byte
  rintro ⟨retval, encodingByte⟩
  apply h.ite (h.pure _)
  apply h.ite (h.map _ h.byte)
  apply h.ite (h.map _ (h.both h.byte h.uint16))
  apply h.ite (h.map _ (h.both h.uint16 h.uint32))
  apply h.ite (h.map _ (h.both h.uint16 h.string))
  apply h.ite (h.map _ (h.both h.uint16 h.guid))
  exact h.ite (h.map _ (h.both h.uint16 h.string)) (h.pure _)

theorem localizedText : R _ (localizedTextDecodeBinary env) (localizedTextDecodeBinary env) := by
  apply h.bind h.byte
  rintro ⟨retval, encoding⟩
  exact h.bind (h.both (h.decodeIf h.string) (h.decodeIf h.string)) fun _ => h.pure _

theorem diagnosticInfo (hfault : ∀ x : Fault, R (Decoded DiagnosticInfo) (throw x) (throw x))
    (fuel : Nat) :
    R _ (diagnosticInfoDecodeBinary env fuel) (diagnosticInfoDecodeBinary env fuel) := by
  induction fuel with
  | zero => exact hfault _
  | succ fuel ih =>
    apply h.bind h.byte
    rintro ⟨retval, encodingMask⟩
    apply h.ite (h.pure _)
    apply h.bind (h.both (h.both (h.both (h.both (h.both (h.field h.uint32) (h.field h.uint32))
      (h.field h.uint32)) (h.field h.uint32)) (h.field h.string)) (h.field h.uint32))
    rintro ⟨status, _, _⟩
    apply h.ite (h.pure _)
    exact h.allocated (h.bind ih fun _ => h.pure _) (h.pure _)

theorem elements {d e : DecodeM (Decoded Value)} (hd : R _ d e) (n : Nat) :
    R _ (arrayDecodeBinaryElements d n) (arrayDecodeBinaryElements e n) := by
  induction n with
  | zero => exact h.map _ hd
  | succ n ih =>
    apply h.bind hd
    rintro ⟨retval, v⟩
    exact h.ite (h.pure _) (h.map _ ih)

theorem array (type : DataType) {d e : DecodeM (Decoded Value)} (hd : R _ d e) :
    R _ (arrayDecodeBinary env type d) (arrayDecodeBinary env type e) := by
  apply h.bind (h.header _)
  intro header
  cases header with
  | fails status => exact h.pure _
  | empty sentinel => exact h.pure _
  | allocated length length_pos =>
    apply h.ite
    · apply h.bind (h.primitive _ _ _)
      rintro ⟨retval, mem⟩
      cases mem with
      | none => exact h.pure _
      | some mem => exact h.pure _
    · apply h.bind (h.elements hd (length - 1))
      rintro ⟨retval, data⟩
      exact h.ite (h.pure _) (h.pure _)

variable {d e : DataType → DecodeM (Decoded Value)}

theorem objectContent (hjump : R Unit jumpOverLength jumpOverLength)
    (hd : ∀ type, R _ (d type) (e type)) (typeId : NodeId) :
    R _ (extensionObjectDecodeBinaryContent env d typeId)
      (extensionObjectDecodeBinaryContent env e typeId) := by
  unfold extensionObjectDecodeBinaryContent
  split
  · exact h.map _ h.string
  · next type _ =>
    exact h.allocated (h.bind hjump fun _ => h.map _ (hd type)) (h.pure _)

theorem unwrapContent (hd : ∀ type, R _ (d type) (e type)) (type : DataType) :
    R _ (variantDecodeBinaryUnwrapContent env d type)
      (variantDecodeBinaryUnwrapContent env e type) := by
  apply h.allocated ?_ (h.pure _)
  apply h.bind (hd type)
  rintro ⟨retval, data⟩
  exact h.ite (h.pure _) (h.pure _)

end CongruentLeaf

namespace Congruent

variable (h : Congruent env R) {d e : DataType → DecodeM (Decoded Value)}
include h

theorem extensionObject (hd : ∀ type, R _ (d type) (e type)) :
    R _ (extensionObjectDecodeBinary env d) (extensionObjectDecodeBinary env e) := by
  apply h.bind (h.both h.nodeId h.byte)
  rintro ⟨retval, typeId, encoding⟩
  apply h.ite (h.pure _)
  apply h.ite (h.pure _)
  apply h.ite (h.objectContent h.jump hd typeId)
  apply h.ite (h.pure _)
  exact h.ite (h.map _ h.string) (h.pure _)

theorem unwrapExtensionObject (hd : ∀ type, R _ (d type) (e type)) :
    R _ (variantDecodeBinaryUnwrapExtensionObject env d)
      (variantDecodeBinaryUnwrapExtensionObject env e) := by
  apply h.position
  intro s t hpos
  rw [hpos]
  apply h.bind h.nodeId
  rintro ⟨retval, typeId⟩
  apply h.ite (h.pure _)
  apply h.bind h.byte
  rintro ⟨retval, encoding⟩
  apply h.ite (h.pure _)
  split
  · next type _ => exact h.bind h.jump fun _ => h.unwrapContent hd type
  · exact h.bind (h.seek s.pos) fun _ => h.unwrapContent hd _

theorem variantContent (hd : ∀ type, R _ (d type) (e type)) (encodingByte : UInt8) (b : Builtin) :
    R _ (variantDecodeBinaryContent env d encodingByte b)
      (variantDecodeBinaryContent env e encodingByte b) := by
  apply h.ite
  · exact h.map _ (h.both (h.array _ (hd _)) (h.decodeIf h.dimensions))
  · apply h.ite (h.unwrapExtensionObject hd)
    exact h.allocated (h.map _ (hd _)) (h.pure _)

theorem variant (hd : ∀ type, R _ (d type) (e type)) :
    R _ (variantDecodeBinary env d) (variantDecodeBinary env e) := by
  apply h.bind h.byte
  rintro ⟨retval, encodingByte⟩
  apply h.ite (h.pure _)
  apply h.ite (h.pure _)
  apply h.ite (h.pure _)
  split
  · exact h.pure _
  · next b _ => exact h.variantContent hd encodingByte b

theorem dataValue (hd : ∀ type, R _ (d type) (e type)) :
    R _ (dataValueDecodeBinary env d) (dataValueDecodeBinary env e) := by
  apply h.bind h.byte
  rintro ⟨retval, encodingMask⟩
  apply h.ite (h.pure _)
  exact h.map _ (h.both (h.both (h.both (h.both (h.both (h.decodeIf (h.variant hd))
    (h.field h.uint32)) (h.field h.uint64)) (h.field (h.map _ h.uint16))) (h.field h.uint64))
    (h.field (h.map _ h.uint16)))

theorem builtin (hd : ∀ type, R _ (d type) (e type)) (fuel : Nat) {b : Builtin}
    (hb : b ≠ .expandedNodeId) :
    R _ (builtinDecodeBinary env d fuel b) (builtinDecodeBinary env e fuel b) := by
  cases b with
  | boolean => exact h.map _ (h.primitive _ _ _)
  | sbyte | byte => exact h.map _ h.byte
  | int16 | uint16 => exact h.map _ h.uint16
  | int32 | uint32 => exact h.map _ h.uint32
  | int64 | uint64 => exact h.map _ h.uint64
  | float => exact h.map _ h.uint32
  | double => exact h.map _ h.uint64
  | string => exact h.map _ h.string
  | dateTime => exact h.map _ h.uint64
  | guid => exact h.map _ h.guid
  | byteString | xmlElement => exact h.map _ h.string
  | nodeId => exact h.map _ h.nodeId
  | expandedNodeId => exact absurd rfl hb
  | statusCode => exact h.map _ h.uint32
  | qualifiedName =>
    rw [builtinDecodeBinary, builtinDecodeBinary]
    exact h.map _ (h.both h.uint16 h.string)
  | localizedText => exact h.map _ h.localizedText
  | extensionObject => exact h.extensionObject hd
  | dataValue => exact h.dataValue hd
  | variant => exact h.map _ (h.variant hd)
  | diagnosticInfo => exact h.map _ (h.diagnosticInfo (fun x => h.fault x) fuel)

mutual

theorem entry (hx : R _ (expandedNodeIdDecodeBinary env) (expandedNodeIdDecodeBinary env))
    (hd : ∀ type, R _ (d type) (e type)) (fuel : Nat) : (type : DataType) →
    R _ (decodeBinaryEntry env d fuel type) (decodeBinaryEntry env e fuel type)
  | .builtin b => by
    rw [decodeBinaryEntry, decodeBinaryEntry]
    by_cases hb : b = .expandedNodeId
    · subst hb
      exact h.map _ hx
    · exact h.builtin hd fuel hb
  | .enumeration _ _ => by
    rw [decodeBinaryEntry, decodeBinaryEntry]
    exact h.map _ h.uint32
  | .structure _ _ _ members => by
    rw [decodeBinaryEntry, decodeBinaryEntry]
    exact h.map _ (internal hx hd fuel members)

theorem internal (hx : R _ (expandedNodeIdDecodeBinary env) (expandedNodeIdDecodeBinary env))
    (hd : ∀ type, R _ (d type) (e type)) (fuel : Nat) : (members : MemberTypes) →
    R _ (decodeBinaryInternal env d fuel members) (decodeBinaryInternal env e fuel members)
  | .nil => by
    rw [decodeBinaryInternal, decodeBinaryInternal]
    exact h.pure _
  | .scalar type rest => by
    rw [decodeBinaryInternal, decodeBinaryInternal]
    exact h.map _ (h.both (entry hx hd fuel type) (internal hx hd fuel rest))
  | .array type rest => by
    rw [decodeBinaryInternal, decodeBinaryInternal]
    exact h.map _ (h.both (h.array type (entry hx hd fuel type)) (internal hx hd fuel rest))

end

end Congruent

end FactoryThing.Encoding
