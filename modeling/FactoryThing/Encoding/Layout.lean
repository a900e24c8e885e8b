import FactoryThing.Encoding.Script

/-!
# Laying out a value in buffers

Where the pieces of an encoding fall when the buffers are too small for all of it, by sizes alone.
A `Supply` gives the room in the current buffer and, at every exchange, the next buffer or a
refusal. `LaysOut` says how a script is laid out: a primitive lies in one buffer, overlayable
memory is spread over several ones element by element, and an element that is cut goes as a whole
into the next buffer. There is no rule for an element that is cut after a part of it went into an
earlier buffer: it cannot be taken back from there.
-/

namespace FactoryThing.Encoding

/-- A supply of buffers: the number of the current buffer, the room in it, the effect of writing a
number of bytes, and the exchange of the buffer, which may be refused. -/
structure Supply (σ : Type) where
  serial : σ → Nat
  room : σ → Nat
  write : σ → Nat → σ
  next : σ → Option σ

/-- How the layout of a script ends: all of it has been placed, some primitive was cut off by the
end of its buffer, or a buffer was refused. -/
inductive Outcome (σ : Type) where
  | fits (t : σ)
  | cut (t : σ)
  | stopped
  deriving DecidableEq

/-- The outcome of a part that is placed although the part before it was cut. -/
def Outcome.afterCut {σ : Type} : Outcome σ → Outcome σ
  | fits t => cut t
  | cut t => cut t
  | stopped => stopped

/-- The layout of a script from a state of the supply. -/
inductive LaysOut {σ : Type} (p : Supply σ) : Script → σ → Outcome σ → Prop where
  | done {s : σ} : LaysOut p .done s (.fits s)
  | write {bytes : List UInt8} {s : σ} (h : bytes.length ≤ p.room s) :
      LaysOut p (.write bytes) s (.fits (p.write s bytes.length))
  | writeCut {bytes : List UInt8} {s : σ} (h : p.room s < bytes.length) :
      LaysOut p (.write bytes) s (.cut s)
  | copy {unit : Nat} {mem : List UInt8} {s : σ} (h : mem.length ≤ p.room s) :
      LaysOut p (.copy unit mem) s (.fits (p.write s mem.length))
  | copyNext {unit : Nat} {mem : List UInt8} {s t : σ} {out : Outcome σ}
      (h : p.room s < mem.length)
      (hnext : p.next (p.write s (p.room s / unit * unit)) = some t)
      (hrest : LaysOut p (.copy unit (mem.drop (p.room s / unit * unit))) t out) :
      LaysOut p (.copy unit mem) s out
  | copyStop {unit : Nat} {mem : List UInt8} {s : σ} (h : p.room s < mem.length)
      (hnext : p.next (p.write s (p.room s / unit * unit)) = none) :
      LaysOut p (.copy unit mem) s .stopped
  | both {a b : Script} {s t : σ} {out : Outcome σ} (ha : LaysOut p a s (.fits t))
      (hb : LaysOut p b t out) : LaysOut p (.both a b) s out
  | bothCut {a b : Script} {s t : σ} {out : Outcome σ} (ha : LaysOut p a s (.cut t))
      (hb : LaysOut p b t out) : LaysOut p (.both a b) s out.afterCut
  | bothStop {a b : Script} {s : σ} (ha : LaysOut p a s .stopped) :
      LaysOut p (.both a b) s .stopped
  | andThen {a b : Script} {s t : σ} {out : Outcome σ} (ha : LaysOut p a s (.fits t))
      (hb : LaysOut p b t out) : LaysOut p (.andThen a b) s out
  | andThenCut {a b : Script} {s t : σ} (ha : LaysOut p a s (.cut t)) :
      LaysOut p (.andThen a b) s (.cut t)
  | andThenStop {a b : Script} {s : σ} (ha : LaysOut p a s .stopped) :
      LaysOut p (.andThen a b) s .stopped
  | retry {a : Script} {s t : σ} (h : LaysOut p a s (.fits t)) :
      LaysOut p (.retry a) s (.fits t)
  | retryStop {a : Script} {s : σ} (h : LaysOut p a s .stopped) :
      LaysOut p (.retry a) s .stopped
  | retryNext {a : Script} {s t u : σ} {out : Outcome σ} (h : LaysOut p a s (.cut t))
      (hwhole : p.serial t = p.serial s) (hnext : p.next s = some u)
      (hrest : LaysOut p (.retry a) u out) : LaysOut p (.retry a) s out
  | retryRefused {a : Script} {s t : σ} (h : LaysOut p a s (.cut t))
      (hwhole : p.serial t = p.serial s) (hnext : p.next s = none) :
      LaysOut p (.retry a) s .stopped

/-! ## After a refusal

The encoder carries on after a refused buffer wherever the source joins status codes. It does so
without a buffer, and none of the scripts asks for an exchange again. -/

def Script.Calm : Script → Prop
  | done => True
  | write _ => True
  | copy _ _ => False
  | fail _ _ => True
  | failAfter s _ _ => s.Calm
  | both a b => a.Calm ∧ b.Calm
  | andThen a b => a.Calm ∧ b.Calm
  | retry _ => False

/-- A script that asks for no exchange when there is no room at all. -/
def Script.Quiet : Script → Prop
  | done => True
  | write _ => True
  | copy _ _ => False
  | fail _ _ => True
  | failAfter s _ _ => s.Quiet
  | both a b => a.Quiet ∧ b.Quiet
  | andThen (write bytes) _ => 0 < bytes.length
  | andThen _ _ => False
  | retry _ => False

/-- Wherever status codes are joined, only the last part that may exchange buffers needs them, and
where a function returns early with an error after some work, that work takes no exchange. -/
def Script.Tame : Script → Prop
  | done => True
  | write _ => True
  | copy _ _ => True
  | fail _ _ => True
  | failAfter s _ _ => s.Calm
  | both a b => a.Tame ∧ b.Tame ∧ (a.Calm ∨ b.Quiet)
  | andThen a b => a.Tame ∧ b.Tame
  | retry s => s.Tame

theorem not_stopped_of_calm {σ : Type} {p : Supply σ} {sc : Script} {s : σ} {out : Outcome σ}
    (hcalm : sc.Calm) (h : LaysOut p sc s out) : out ≠ .stopped := by
  induction h with
  | done => simp
  | write h => simp
  | writeCut h => simp
  | copy h => exact hcalm.elim
  | copyNext h hnext hrest ih => exact hcalm.elim
  | copyStop h hnext => exact hcalm.elim
  | both ha hb iha ihb => exact ihb hcalm.2
  | @bothCut a b s t out ha hb iha ihb =>
    have hout := ihb hcalm.2
    cases out with
    | fits t => simp [Outcome.afterCut]
    | cut t => simp [Outcome.afterCut]
    | stopped => exact absurd rfl hout
  | bothStop ha iha => exact absurd rfl (iha hcalm.1)
  | andThen ha hb iha ihb => exact ihb hcalm.2
  | andThenCut ha iha => simp
  | andThenStop ha iha => exact absurd rfl (iha hcalm.1)
  | retry h ih => exact hcalm.elim
  | retryStop h ih => exact hcalm.elim
  | retryNext h hwhole hnext hrest ih ihrest => exact hcalm.elim
  | retryRefused h hwhole hnext ih => exact hcalm.elim

theorem Script.Calm.tame {sc : Script} (h : sc.Calm) : sc.Tame := by
  induction sc with
  | done | write | fail => trivial
  | copy unit mem => trivial
  | failAfter sc status bad ih => exact h
  | both a b iha ihb => exact ⟨iha h.1, ihb h.2, .inl h.1⟩
  | andThen a b iha ihb => exact ⟨iha h.1, ihb h.2⟩
  | retry sc ih => exact h.elim

/-! ## The script of every value is tame -/

theorem quiet_arrayScript (length : Nat) (content : Script) :
    (arrayScript length content).Quiet := by
  unfold arrayScript
  split
  · exact trivial
  · simp [uint32Script, Script.Quiet]

theorem quiet_stringScript (s : UaString) : (stringScript s).Quiet := by
  unfold stringScript
  split
  · exact quiet_arrayScript _ _
  · exact trivial

theorem quiet_scriptIf {c : Bool} {sc : Script} (h : sc.Quiet) : (scriptIf c sc).Quiet := by
  cases c with
  | false => exact trivial
  | true => exact h

theorem quiet_fieldScript {α : Type} {field : Option α} {sc : α → Script} (h : ∀ x, (sc x).Quiet) :
    (fieldScript field sc).Quiet := by
  cases field with
  | none => exact trivial
  | some x => exact h x

theorem quiet_dimensionsScript (dims : List UInt32) : (dimensionsScript dims).Quiet := by
  unfold dimensionsScript
  split
  · exact trivial
  · exact quiet_arrayScript _ _

theorem quiet_diagnosticInfoScript : (d : DiagnosticInfo) → (diagnosticInfoScript d).Quiet
  | .mk symbolicId namespaceUri localizedText locale additionalInfo innerStatusCode none => by
    rw [diagnosticInfoScript]
    have h32 := fun v => (trivial : (uint32Script v).Quiet)
    exact ⟨⟨⟨⟨⟨⟨⟨trivial, quiet_fieldScript h32⟩, quiet_fieldScript h32⟩, quiet_fieldScript h32⟩,
      quiet_fieldScript h32⟩, quiet_fieldScript quiet_stringScript⟩, quiet_fieldScript h32⟩,
        trivial⟩
  | .mk symbolicId namespaceUri localizedText locale additionalInfo innerStatusCode (some d) => by
    rw [diagnosticInfoScript]
    have h32 := fun v => (trivial : (uint32Script v).Quiet)
    exact ⟨⟨⟨⟨⟨⟨⟨trivial, quiet_fieldScript h32⟩, quiet_fieldScript h32⟩, quiet_fieldScript h32⟩,
      quiet_fieldScript h32⟩, quiet_fieldScript quiet_stringScript⟩, quiet_fieldScript h32⟩,
      quiet_diagnosticInfoScript d⟩

theorem Script.Tame.both_quiet {a b : Script} (ha : a.Tame) (hb : b.Tame) (hquiet : b.Quiet) :
    (Script.both a b).Tame :=
  ⟨ha, hb, Or.inr hquiet⟩

theorem tame_arrayScript {length : Nat} {content : Script} (h : content.Tame) :
    (arrayScript length content).Tame := by
  unfold arrayScript
  split
  · exact trivial
  · exact ⟨trivial, h⟩

theorem tame_stringScript (s : UaString) : (stringScript s).Tame := by
  unfold stringScript
  split
  · exact tame_arrayScript trivial
  · exact trivial

theorem tame_guidScript (g : Guid) : (guidScript g).Tame :=
  ⟨⟨⟨trivial, trivial, Or.inr trivial⟩, trivial, Or.inr trivial⟩, trivial, Or.inr trivial⟩

theorem tame_nodeIdScript (n : NodeId) (encoding : UInt8) : (nodeIdScript n encoding).Tame := by
  unfold nodeIdScript
  cases n.identifier with
  | numeric i =>
    dsimp only
    split
    · exact ⟨⟨trivial, trivial, Or.inr trivial⟩, trivial, Or.inr trivial⟩
    · split
      · exact ⟨⟨trivial, trivial, Or.inr trivial⟩, trivial, Or.inr trivial⟩
      · exact ⟨trivial, trivial, Or.inr trivial⟩
  | string s =>
      exact ⟨⟨trivial, trivial, Or.inr trivial⟩, tame_stringScript s, Or.inl ⟨trivial, trivial⟩⟩
  | guid g => exact ⟨⟨trivial, trivial, Or.inr trivial⟩, tame_guidScript g,
      Or.inl ⟨trivial, trivial⟩⟩
  | byteString s =>
    exact ⟨⟨trivial, trivial, Or.inr trivial⟩, tame_stringScript s, Or.inl ⟨trivial, trivial⟩⟩

theorem tame_scriptIf {c : Bool} {sc : Script} (h : sc.Tame) : (scriptIf c sc).Tame := by
  cases c with
  | false => exact trivial
  | true => exact h

theorem tame_fieldScript {α : Type} {field : Option α} {sc : α → Script} (h : ∀ x, (sc x).Tame) :
    (fieldScript field sc).Tame := by
  cases field with
  | none => exact trivial
  | some x => exact h x

theorem tame_expandedNodeIdScript (n : ExpandedNodeId) : (expandedNodeIdScript n).Tame := by
  apply Script.Tame.both_quiet
  · apply Script.Tame.both_quiet
    · exact tame_nodeIdScript _ _
    · exact tame_scriptIf (tame_stringScript _)
    · exact quiet_scriptIf (quiet_stringScript _)
  · exact tame_scriptIf trivial
  · exact quiet_scriptIf trivial

theorem tame_localizedTextScript (t : LocalizedText) : (localizedTextScript t).Tame := by
  apply Script.Tame.both_quiet
  · apply Script.Tame.both_quiet
    · exact trivial
    · exact tame_scriptIf (tame_stringScript _)
    · exact quiet_scriptIf (quiet_stringScript _)
  · exact tame_scriptIf (tame_stringScript _)
  · exact quiet_scriptIf (quiet_stringScript _)

theorem tame_encodedObjectScript (typeId : NodeId) (body : EncodedBody) :
    (encodedObjectScript typeId body).Tame := by
  have hheader : ∀ b, (Script.both (nodeIdScript typeId 0) (byteScript b)).Tame :=
    fun b => (tame_nodeIdScript typeId 0).both_quiet trivial trivial
  cases body with
  | noBody => exact hheader 0
  | byteString s => exact (hheader 1).both_quiet (tame_stringScript s) (quiet_stringScript s)
  | xml s => exact (hheader 2).both_quiet (tame_stringScript s) (quiet_stringScript s)

theorem tame_diagnosticInfoScript : (d : DiagnosticInfo) → (diagnosticInfoScript d).Tame
  | .mk symbolicId namespaceUri localizedText locale additionalInfo innerStatusCode inner => by
    have h32 : ∀ field : Option UInt32, (fieldScript field uint32Script).Tame ∧
        (fieldScript field uint32Script).Quiet :=
      fun _ => ⟨tame_fieldScript fun _ => trivial, quiet_fieldScript fun _ => trivial⟩
    cases inner with
    | none =>
      rw [diagnosticInfoScript]
      exact ⟨⟨⟨⟨⟨⟨⟨trivial, (h32 _).1, .inr (h32 _).2⟩, (h32 _).1, .inr (h32 _).2⟩, (h32 _).1,
        .inr (h32 _).2⟩, (h32 _).1, .inr (h32 _).2⟩, tame_fieldScript tame_stringScript,
        .inr (quiet_fieldScript quiet_stringScript)⟩, (h32 _).1, .inr (h32 _).2⟩, trivial,
        .inr trivial⟩
    | some d =>
      rw [diagnosticInfoScript]
      exact ⟨⟨⟨⟨⟨⟨⟨trivial, (h32 _).1, .inr (h32 _).2⟩, (h32 _).1, .inr (h32 _).2⟩, (h32 _).1,
        .inr (h32 _).2⟩, (h32 _).1, .inr (h32 _).2⟩, tame_fieldScript tame_stringScript,
        .inr (quiet_fieldScript quiet_stringScript)⟩, (h32 _).1, .inr (h32 _).2⟩,
        tame_diagnosticInfoScript d, .inr (quiet_diagnosticInfoScript d)⟩

theorem tame_dimensionsScript (dims : List UInt32) : (dimensionsScript dims).Tame := by
  unfold dimensionsScript
  split
  · exact trivial
  · exact tame_arrayScript trivial

theorem calm_encodingTypeId (type : TypeInfo) (encoding : UInt8) :
    (nodeIdScript (encodingTypeId type) encoding).Calm := by
  show (ite _ _ (ite _ _ _) : Script).Calm
  split
  · exact ⟨⟨trivial, trivial⟩, trivial⟩
  · split
    · exact ⟨⟨trivial, trivial⟩, trivial⟩
    · exact ⟨trivial, trivial⟩

theorem calm_objectHeaderScript (type : TypeInfo) : (objectHeaderScript type).Calm :=
  ⟨calm_encodingTypeId type 0, trivial⟩

theorem tame_decodedObjectScript {type : TypeInfo} {len : Nat} {content : Script}
    (h : content.Tame) : (decodedObjectScript type len content).Tame := by
  unfold decodedObjectScript
  split
  · exact trivial
  · split
    · exact calm_objectHeaderScript type
    · exact ⟨(calm_objectHeaderScript type).tame, ⟨trivial, h, .inl trivial⟩,
        .inl (calm_objectHeaderScript type)⟩

mutual

theorem tame_script : (v : Value) → (script v).Tame
  | .byte _ => trivial
  | .uint16 _ => trivial
  | .uint32 _ => trivial
  | .uint64 _ => trivial
  | .string s => tame_stringScript s
  | .guid g => tame_guidScript g
  | .nodeId n => tame_nodeIdScript n 0
  | .expandedNodeId n => tame_expandedNodeIdScript n
  | .localizedText t => tame_localizedTextScript t
  | .encodedObject typeId body => tame_encodedObjectScript typeId body
  | .decodedObject type data => by
    rw [script]
    exact tame_decodedObjectScript (tame_script data)
  | .unsetObject => trivial
  | .dataValue hasValue value f => by
    rw [script]
    have hfield : ∀ {α : Type} (field : Option α) (sc : α → Script), (∀ x, (sc x).Tame) →
        (∀ x, (sc x).Quiet) → (fieldScript field sc).Tame ∧ (fieldScript field sc).Quiet :=
      fun field sc ht hq => ⟨tame_fieldScript ht, quiet_fieldScript hq⟩
    have h16 := fun field => hfield field uint16Script (fun _ => trivial) (fun _ => trivial)
    have h32 := fun field => hfield field uint32Script (fun _ => trivial) (fun _ => trivial)
    have h64 := fun field => hfield field uint64Script (fun _ => trivial) (fun _ => trivial)
    exact ⟨⟨⟨⟨⟨⟨trivial, tame_scriptIf (tame_variantScript value), .inl trivial⟩,
      (h32 _).1, .inr (h32 _).2⟩, (h64 _).1, .inr (h64 _).2⟩, (h16 _).1, .inr (h16 _).2⟩,
      (h64 _).1, .inr (h64 _).2⟩, (h16 _).1, .inr (h16 _).2⟩
  | .variant v => by
    rw [script]
    exact tame_variantScript v
  | .diagnosticInfo d => tame_diagnosticInfoScript d
  | .structure members => by
    rw [script]
    exact tame_membersScript members

theorem tame_variantScript : (v : Variant) → (variantScript v).Tame
  | .empty => trivial
  | .scalar type data => by
    rw [variantScript]
    exact ⟨trivial, tame_script data, .inl trivial⟩
  | .array type data dims => by
    rw [variantScript]
    exact Script.Tame.both_quiet ⟨trivial, tame_arrayDataScript data, .inl trivial⟩
      (tame_dimensionsScript dims) (quiet_dimensionsScript dims)
  | .wrapped type data => by
    rw [variantScript]
    exact ⟨trivial, tame_decodedObjectScript (tame_script data), .inl trivial⟩
  | .wrappedEmpty type dims =>
    Script.Tame.both_quiet ⟨trivial, trivial, .inl trivial⟩
      (tame_dimensionsScript dims) (quiet_dimensionsScript dims)
  | .wrappedArray type data dims => by
    rw [variantScript]
    refine Script.Tame.both_quiet ⟨trivial, ?_, .inl trivial⟩
      (tame_dimensionsScript dims) (quiet_dimensionsScript dims)
    split
    · exact trivial
    · exact ⟨trivial, tame_wrappedScript type data⟩

theorem tame_wrappedScript (type : TypeInfo) : (vs : Values) → (wrappedScript type vs).Tame
  | .one v => by
    rw [wrappedScript]
    exact tame_decodedObjectScript (tame_script v)
  | .cons v rest => by
    rw [wrappedScript]
    exact ⟨tame_decodedObjectScript (tame_script v), tame_wrappedScript type rest⟩

theorem tame_arrayDataScript : (a : ArrayData) → (arrayDataScript a).Tame
  | .empty _ => trivial
  | .overlay _ => tame_arrayScript trivial
  | .elements data => by
    rw [arrayDataScript]
    exact tame_arrayScript (tame_valuesScript data)

theorem tame_valuesScript : (vs : Values) → (valuesScript vs).Tame
  | .one v => by
    rw [valuesScript]
    exact tame_script v
  | .cons v rest => by
    rw [valuesScript]
    exact ⟨tame_script v, tame_valuesScript rest⟩

theorem tame_membersScript : (ms : Members) → (membersScript ms).Tame
  | .nil => trivial
  | .scalar v rest => by
    rw [membersScript]
    exact ⟨tame_script v, tame_membersScript rest⟩
  | .array a rest => by
    rw [membersScript]
    exact ⟨tame_arrayDataScript a, tame_membersScript rest⟩

end

end FactoryThing.Encoding
