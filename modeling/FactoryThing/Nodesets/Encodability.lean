import FactoryThing.Nodesets.NodeIdText
import FactoryThing.Lib.MarkedSearch

/-!
# Encodability of data types

`buildEncoding` of `opcua_node_dataType_t` (ua_node_types.py:1446-1621) looks for the encoding of a
data type: that of a builtin type, of an enumeration, of its fields, or of its supertypes. A type
that is still being looked at counts as encodable.
-/

namespace FactoryThing.Nodesets

open Relation MarkedSearch

/-- An element of a `<Definition>`, with its attributes where it has them. -/
structure Field where
  name : Option Str
  dataType : Option Str
  value : Option Int
  valueRank : Option Int
deriving DecidableEq

/-- A reference of a data type: the browse name of its type, and its target if that is a data
type. -/
structure TypeReference (n : Nat) where
  referenceType : Str
  isForward : Bool
  target : Option (Fin n)
deriving DecidableEq

/-- The data types of a namespace. -/
structure DataTypes (n : Nat) where
  id : Fin n → OpcuaNodeId
  browseName : Fin n → Str
  references : Fin n → List (TypeReference n)
  /-- `__xmlDefinition__`. -/
  definition : Fin n → Option (List Field)

/-- The nested lists that describe an encoding. -/
inductive Encoding where
  | text (s : Str)
  | number (z : Int)
  | list (es : List Encoding)

/-- `__definition__`. -/
inductive TypeDefinition (n : Nat) where
  | enumeration (enumDict : List (Str × Option Int))
  | fields (typeDict : List (Str × Fin n))

/-- What `buildEncoding` writes into a data type. -/
structure TypeState (n : Nat) where
  encodingBuilt : Bool
  encodable : Option Bool
  baseTypeEncoding : List Encoding
  definition : TypeDefinition n
  isEnum : Bool

/-- `__init_subType__` (ua_node_types.py:1401-1409). -/
def TypeState.init (n : Nat) : TypeState n where
  encodingBuilt := false
  encodable := none
  baseTypeEncoding := []
  definition := .fields []
  isEnum := false

abbrev EncodingState (n : Nat) := Fin n → TypeState n

namespace EncodingState

variable {n : Nat}

def modify (st : EncodingState n) (t : Fin n) (f : TypeState n → TypeState n) : EncodingState n :=
  Function.update st t (f (st t))

/-- What is written before the type is looked at (ua_node_types.py:1503-1504). -/
def attempt (st : EncodingState n) (t : Fin n) : EncodingState n :=
  st.modify t fun s => { s with encodingBuilt := true, encodable := some true }

/-- `self.__encodable__ = False`. -/
def notEncodable (st : EncodingState n) (t : Fin n) : EncodingState n :=
  st.modify t fun s => { s with encodable := some false }

/-- `self.__baseTypeEncoding__ = self.__baseTypeEncoding__ + enc`. -/
def extend (st : EncodingState n) (t : Fin n) (enc : List Encoding) : EncodingState n :=
  st.modify t fun s => { s with baseTypeEncoding := s.baseTypeEncoding ++ enc }

end EncodingState

/-- `knownTypes` (ua_builtin_types.py:61-65). -/
def knownTypes : List Str :=
  ["boolean".toList, "int32".toList, "uint32".toList, "int16".toList, "uint16".toList,
    "int64".toList, "uint64".toList, "byte".toList, "sbyte".toList, "float".toList, "double".toList,
    "string".toList, "bytestring".toList, "localizedtext".toList, "statuscode".toList,
    "diagnosticinfo".toList, "nodeid".toList, "guid".toList, "datetime".toList,
    "qualifiedname".toList, "expandednodeid".toList, "xmlelement".toList]

/-- `lower`, of the letters that the texts compared with consist of. -/
def lower (s : Str) : Str := s.map Char.toLower

/-- `isBuiltinByString` (ua_builtin_types.py:90-93). -/
def isBuiltinByString (string : Str) : Bool := decide (lower string ∈ knownTypes)

/-- The loop that takes away lists around a single list (ua_node_types.py:1601-1602). -/
def unnest : List Encoding → List Encoding
  | [.list es] => unnest es
  | es => es

/-- What the loop over the fields of a definition keeps. -/
structure FieldsRead (n : Nat) where
  isEnum : Bool
  isSubType : Bool
  enumDict : List (Str × Option Int)
  typeDict : List (Str × Fin n)

/-- A `DataType` says that it is no enumeration, a `Value` that it is no structure. -/
def FieldsRead.see {n : Nat} (r : FieldsRead n) (x : Field) : FieldsRead n :=
  { r with isEnum := r.isEnum && x.dataType.isNone, isSubType := r.isSubType && x.value.isNone }

/-- The reference leads to a supertype (ua_node_types.py:1522-1523). -/
def TypeReference.toSuperType {n : Nat} (ref : TypeReference n) : Option (Fin n) :=
  if "hassubtype".toList <:+: lower ref.referenceType ∧ ref.isForward = false then ref.target
  else none

namespace DataTypes

variable {n : Nat} (types : DataTypes n)

/-- `getNodeByIDString` (ua_namespace.py:153-166). -/
def getNodeByIDString (idstring : Str) : Option (Fin n) :=
  (List.finRange n).find? fun t => idstring = (types.id t).mystrname

/-- The data type of a field; without the attribute its name is empty. -/
def fieldType (x : Field) : Option (Fin n) := types.getNodeByIDString (x.dataType.getD [])

/-- The loop over the supertypes (ua_node_types.py:1521-1530). -/
def superTypeLoop (build : Fin n → EncodingState n → Option (EncodingState n)) (t : Fin n) :
    List (TypeReference n) → EncodingState n → Option (EncodingState n)
  | [], st => some st
  | ref :: refs, st =>
    match ref.toSuperType with
    | none => superTypeLoop build t refs st
    | some target =>
      (build target st).bind fun st =>
        if (st target).encodable = some true then
          superTypeLoop build t refs
            (st.extend t [.text (types.browseName t), .list (st target).baseTypeEncoding,
              .number 0])
        else some (st.notEncodable t)

/-- The loop over the fields of a definition (ua_node_types.py:1552-1596). -/
def fieldLoop (build : Fin n → EncodingState n → Option (EncodingState n)) (t : Fin n) :
    List Field → FieldsRead n → EncodingState n → Option (FieldsRead n × EncodingState n)
  | [], r, st => some (r, st)
  | x :: xs, r, st =>
    let r := r.see x
    let fname := x.name.getD []
    if r.isEnum = r.isSubType then some (r, st.notEncodable t)
    else if r.isEnum = true then
      fieldLoop build t xs { r with enumDict := r.enumDict ++ [(fname, x.value)] } st
    else
      match types.fieldType x with
      | none => fieldLoop build t xs r (st.notEncodable t)
      | some dtnode =>
        let r := { r with typeDict := r.typeDict ++ [(fname, dtnode)] }
        let hasValueRank := max (x.valueRank.getD 0) 0
        (build dtnode st).bind fun st =>
          let subenc := (st dtnode).baseTypeEncoding
          let st := st.extend t [.list [.text fname, .list subenc, .number hasValueRank]]
          if (st dtnode).encodable = some true then fieldLoop build t xs r st
          else some (r, st.notEncodable t)

/-- What follows the loop over the supertypes (ua_node_types.py:1531-1533). -/
def superTypesDone (s : TypeState n) : TypeState n :=
  if s.baseTypeEncoding.length = 0 then { s with encodable := some false } else s

/-- What follows the loop over the fields (ua_node_types.py:1597-1621). -/
def fieldsDone (indent : Nat) (r : FieldsRead n) (s : TypeState n) : TypeState n :=
  let enc := unnest s.baseTypeEncoding
  if r.isEnum = true then
    { s with
      baseTypeEncoding := enc ++ [.text "Int32".toList]
      definition := .enumeration r.enumDict
      isEnum := true }
  else if indent = 0 ∧ s.encodable = some true then
    { s with baseTypeEncoding := enc, definition := .fields r.typeDict, isEnum := false }
  else { s with baseTypeEncoding := enc }

/-- `buildEncoding` (ua_node_types.py:1446-1621), down to a depth and without `force`. What it
returns is always the `__baseTypeEncoding__` that it leaves. -/
def buildEncoding : Nat → Nat → Fin n → EncodingState n → Option (EncodingState n)
  | 0, _, _, _ => none
  | depth + 1, indent, t, st =>
    if (st t).encodingBuilt = true then some st
    else
      let st := st.attempt t
      if isBuiltinByString (types.browseName t) = true then
        some (st.modify t fun s =>
          { s with baseTypeEncoding := [.text (types.browseName t)], encodable := some true })
      else
        match types.definition t with
        | none =>
          (types.superTypeLoop (buildEncoding depth (indent + 1)) t (types.references t) st).map
            fun st => st.modify t superTypesDone
        | some fields =>
          (types.fieldLoop (buildEncoding depth (indent + 1)) t fields ⟨true, true, [], []⟩ st).map
            fun (r, st) => st.modify t (fieldsDone indent r)

/-- `buildEncoding` for the types of a list, one after the other (ua_namespace.py:423-433). -/
def buildEncodingRules (depth : Nat) : List (Fin n) → EncodingState n → Option (EncodingState n)
  | [], st => some st
  | t :: ts, st => (types.buildEncoding depth 0 t st).bind (buildEncodingRules depth ts)

/-- No field has a data type, and the first one has a value. -/
def IsEnumeration (fields : List Field) : Prop :=
  (∀ x ∈ fields, x.dataType = none) ∧ ∀ x ∈ fields.head?, x.value ≠ none

/-- No field has a value, and the first one has a data type. -/
def IsStructure (fields : List Field) : Prop :=
  (∀ x ∈ fields, x.value = none) ∧ ∃ x ∈ fields.head?, x.dataType ≠ none

def superTypes (t : Fin n) : List (Fin n) :=
    (types.references t).filterMap TypeReference.toSuperType

/-- The types that lead in finitely many steps to builtin types. -/
inductive Traceable : Fin n → Prop
  | builtin (t : Fin n) (h : isBuiltinByString (types.browseName t) = true) : Traceable t
  | enumeration (t : Fin n) (fields : List Field) (hdef : types.definition t = some fields)
      (henum : IsEnumeration fields) : Traceable t
  | structured (t : Fin n) (fields : List Field) (hdef : types.definition t = some fields)
      (hstruct : IsStructure fields) (hthere : ∀ x ∈ fields, types.fieldType x ≠ none)
      (hfields : ∀ x ∈ fields, ∀ u, types.fieldType x = some u → Traceable u) : Traceable t
  | superType (t : Fin n) (hdef : types.definition t = none) (hthere : types.superTypes t ≠ [])
      (hsuper : ∀ u ∈ types.superTypes t, Traceable u) : Traceable t

/-- Whatever the order in which the encodings of all types are built, this ends, and the encodable
types are those that can be traced. -/
def ComputesExactly : Prop :=
  ∀ order : List (Fin n), (∀ t, t ∈ order) →
    ∃ st, types.buildEncodingRules (n + 1) order (fun _ => TypeState.init n) = some st ∧
      ∀ t, (st t).encodable = some true ↔ types.Traceable t

def fieldItem (x : Field) : Item (Fin n) :=
  match types.fieldType x with
  | none => .fails
  | some u => .follow u

/-- The fields of a definition, with what those before them have said. -/
def fieldItems : List Field → Bool → Bool → List (Item (Fin n))
  | [], _, _ => []
  | x :: xs, isEnum, isSubType =>
    let isEnum := isEnum && x.dataType.isNone
    let isSubType := isSubType && x.value.isNone
    if isEnum = isSubType then [.stops]
    else if isEnum = true then fieldItems xs isEnum isSubType
    else types.fieldItem x :: fieldItems xs isEnum isSubType

/-- What `buildEncoding` looks at for a type. -/
def plan (t : Fin n) : List (Item (Fin n)) :=
  if isBuiltinByString (types.browseName t) = true then []
  else
    match types.definition t with
    | none => if types.superTypes t = [] then [.stops] else (types.superTypes t).map .follow
    | some fields => types.fieldItems fields true true

variable {types}

variable {fields : List Field} {t : Fin n}

theorem fieldItems_enumeration (h : ∀ x ∈ fields, x.dataType = none) :
    types.fieldItems fields true false = [] := by
  induction fields with
  | nil => rfl
  | cons x xs ih =>
    rcases List.forall_mem_cons.mp h with ⟨hx, hxs⟩
    simp [fieldItems, hx, ih hxs]

theorem fieldItems_not_enumeration {x : Field} (hx : x ∈ fields) (h : x.dataType ≠ none) :
    Item.stops ∈ types.fieldItems fields true false := by
  induction fields with
  | nil => cases hx
  | cons y ys ih =>
    cases hy : y.dataType with
    | some _ => simp [fieldItems, hy]
    | none =>
      rcases List.mem_cons.mp hx with rfl | hx
      · exact absurd hy h
      · simpa [fieldItems, hy] using ih hx

theorem fieldItems_structure (h : ∀ x ∈ fields, x.value = none) :
    types.fieldItems fields false true = fields.map types.fieldItem := by
  induction fields with
  | nil => rfl
  | cons x xs ih =>
    rcases List.forall_mem_cons.mp h with ⟨hx, hxs⟩
    simp [fieldItems, hx, ih hxs]

theorem fieldItems_not_structure {x : Field} (hx : x ∈ fields) (h : x.value ≠ none) :
    Item.stops ∈ types.fieldItems fields false true := by
  induction fields with
  | nil => cases hx
  | cons y ys ih =>
    cases hy : y.value with
    | some _ => simp [fieldItems, hy]
    | none =>
      rcases List.mem_cons.mp hx with rfl | hx
      · exact absurd hy h
      · simpa [fieldItems, hy] using Or.inr (ih hx)

theorem fieldItems_cases (types : DataTypes n) (fields : List Field) :
    (IsEnumeration fields ∧ types.fieldItems fields true true = []) ∨
      (IsStructure fields ∧ types.fieldItems fields true true = fields.map types.fieldItem) ∨
      ¬ IsEnumeration fields ∧ ¬ IsStructure fields ∧
        Item.stops ∈ types.fieldItems fields true true := by
  cases fields with
  | nil => exact Or.inl ⟨by simp [IsEnumeration], rfl⟩
  | cons x xs =>
    cases hd : x.dataType <;> cases hv : x.value
    · exact Or.inr (Or.inr ⟨by simp [IsEnumeration, hv], by simp [IsStructure, hd],
        by simp [fieldItems, hd, hv]⟩)
    · by_cases hxs : ∀ y ∈ xs, y.dataType = none
      · exact Or.inl ⟨by simpa [IsEnumeration, hd, hv] using hxs,
          by simp [fieldItems, hd, hv, fieldItems_enumeration hxs]⟩
      · refine Or.inr (Or.inr ⟨by simpa [IsEnumeration, hd, hv] using hxs,
          by simp [IsStructure, hd], ?_⟩)
        rcases not_forall₂.mp hxs with ⟨y, hy, hdy⟩
        simpa [fieldItems, hd, hv] using @fieldItems_not_enumeration _ types _ _ hy hdy
    · by_cases hxs : ∀ y ∈ xs, y.value = none
      · exact Or.inr (Or.inl ⟨by simpa [IsStructure, hd, hv] using hxs,
          by simp [fieldItems, hd, hv, fieldItems_structure hxs]⟩)
      · refine Or.inr (Or.inr ⟨by simp [IsEnumeration, hd],
          by simpa [IsStructure, hd, hv] using hxs, ?_⟩)
        rcases not_forall₂.mp hxs with ⟨y, hy, hvy⟩
        have hstops := @fieldItems_not_structure _ types _ _ hy hvy
        simpa [fieldItems, hd, hv] using Or.inr hstops
    · exact Or.inr (Or.inr ⟨by simp [IsEnumeration, hd], by simp [IsStructure, hv],
        by simp [fieldItems, hd, hv]⟩)

theorem mem_map_fieldItem {u : Fin n} :
    Item.follow u ∈ fields.map types.fieldItem ↔ ∃ x ∈ fields, types.fieldType x = some u := by
  rw [List.mem_map]
  refine exists_congr fun x => and_congr_right fun _ => ?_
  cases hx : types.fieldType x <;> simp [fieldItem, hx]

theorem fails_mem_map_fieldItem :
    Item.fails ∈ fields.map types.fieldItem ↔ ∃ x ∈ fields, types.fieldType x = none := by
  rw [List.mem_map]
  refine exists_congr fun x => and_congr_right fun _ => ?_
  cases hx : types.fieldType x <;> simp [fieldItem, hx]

theorem stops_notMem_map_fieldItem (fields : List Field) :
    Item.stops ∉ fields.map types.fieldItem := by
  intro h
  rcases List.mem_map.mp h with ⟨x, -, hx⟩
  cases hfield : types.fieldType x <;> simp [fieldItem, hfield] at hx

theorem Traceable.marked (h : types.Traceable t) : MarkedSearch.Traceable types.plan t := by
  induction h with
  | builtin t h =>
    have hplan : types.plan t = [] := by simp [plan, h]
    exact ⟨t, by simp [hplan], by simp [hplan], by simp [hplan]⟩
  | enumeration t fields hdef henum =>
    have hplan : types.plan t = [] := by
      rcases types.fieldItems_cases fields with ⟨-, hitems⟩ | ⟨hstruct, -⟩ | ⟨hnot, -⟩
      · simp [plan, hdef, hitems]
      · rcases hstruct.2 with ⟨x, hx, hxd⟩
        exact absurd (henum.1 x (List.mem_of_mem_head? hx)) hxd
      · exact absurd henum hnot
    exact ⟨t, by simp [hplan], by simp [hplan], by simp [hplan]⟩
  | structured t fields hdef hstruct hthere _ ih =>
    have hplan : types.plan t = [] ∨ types.plan t = fields.map types.fieldItem := by
      by_cases hb : isBuiltinByString (types.browseName t) = true
      · exact Or.inl (by simp [plan, hb])
      · rcases types.fieldItems_cases fields with ⟨-, hitems⟩ | ⟨-, hitems⟩ | ⟨-, hnot, -⟩
        · exact Or.inl (by simp [plan, hdef, hitems])
        · exact Or.inr (by simp [plan, hb, hdef, hitems])
        · exact absurd hstruct hnot
    rcases hplan with hplan | hplan
    · exact ⟨t, by simp [hplan], by simp [hplan], by simp [hplan]⟩
    · refine ⟨t, ?_, hplan ▸ stops_notMem_map_fieldItem fields, fun u hu => ?_⟩
      · rw [hplan, fails_mem_map_fieldItem]
        intro hx
        rcases hx with ⟨x, hx, hnone⟩
        exact hthere x hx hnone
      · rw [hplan, mem_map_fieldItem] at hu
        rcases hu with ⟨x, hx, hu⟩
        exact ih x hx u hu
  | superType t hdef hthere _ ih =>
    by_cases hb : isBuiltinByString (types.browseName t) = true
    · have hplan : types.plan t = [] := by simp [plan, hb]
      exact ⟨t, by simp [hplan], by simp [hplan], by simp [hplan]⟩
    · have hplan : types.plan t = (types.superTypes t).map .follow := by
        simp [plan, hb, hdef, hthere]
      exact ⟨t, by simp [hplan], by simp [hplan], fun u hu => ih u (by simpa [hplan] using hu)⟩

theorem traceable_of_marked (h : MarkedSearch.Traceable types.plan t) : types.Traceable t := by
  induction h with
  | intro t hfails hstops _ ih =>
    by_cases hb : isBuiltinByString (types.browseName t) = true
    · exact .builtin t hb
    · cases hdef : types.definition t with
      | none =>
        by_cases hsuper : types.superTypes t = []
        · exact absurd (by simp [plan, hb, hdef, hsuper]) hstops
        · have hplan : types.plan t = (types.superTypes t).map .follow := by
            simp [plan, hb, hdef, hsuper]
          exact .superType t hdef hsuper fun u hu => ih u (by simpa [hplan] using hu)
      | some fields =>
        have hplan : types.plan t = types.fieldItems fields true true := by simp [plan, hb, hdef]
        rcases types.fieldItems_cases fields with ⟨henum, -⟩ | ⟨hstruct, hitems⟩ | ⟨-, -, hmem⟩
        · exact .enumeration t fields hdef henum
        · rw [hitems] at hplan
          rw [hplan] at hfails
          refine .structured t fields hdef hstruct (fun x hx hnone => ?_) fun x hx u hu => ?_
          · exact hfails (fails_mem_map_fieldItem.mpr ⟨x, hx, hnone⟩)
          · exact ih u (hplan ▸ mem_map_fieldItem.mpr ⟨x, hx, hu⟩)
        · exact absurd (hplan ▸ hmem) hstops

theorem traceable_iff : types.Traceable t ↔ MarkedSearch.Traceable types.plan t :=
  ⟨Traceable.marked, traceable_of_marked⟩

end DataTypes

namespace EncodingState

variable {n : Nat} {st st' : EncodingState n} {t : Fin n} {f : TypeState n → TypeState n}

@[simp] theorem modify_self : st.modify t f t = f (st t) := Function.update_self ..

theorem modify_of_ne {u : Fin n} (h : u ≠ t) : st.modify t f u = st u := Function.update_of_ne h ..

def marks (st : EncodingState n) : Marks (Fin n) := fun t =>
  if (st t).encodingBuilt = true then some (decide ((st t).encodable = some true)) else none

theorem marks_modify (h : (f (st t)).encodingBuilt = true) :
    (st.modify t f).marks =
      Function.update st.marks t (some (decide ((f (st t)).encodable = some true))) := by
  funext u
  by_cases hu : u = t
  · subst hu
    simp [marks, h]
  · rw [Function.update_of_ne hu, marks, marks, modify_of_ne hu]

theorem marks_modify_eq (hbuilt : (f (st t)).encodingBuilt = (st t).encodingBuilt)
    (hencodable : (f (st t)).encodable = (st t).encodable) : (st.modify t f).marks = st.marks := by
  funext u
  by_cases hu : u = t
  · subst hu
    simp [marks, hbuilt, hencodable]
  · rw [marks, marks, modify_of_ne hu]

theorem marks_eq_some_true (h : (st t).encodingBuilt = true) :
    st.marks t = some true ↔ (st t).encodable = some true := by simp [marks, h]

@[simp] theorem extend_encodable (enc : List Encoding) (u : Fin n) :
    (st.extend t enc u).encodable = (st u).encodable := by
  by_cases hu : u = t
  · subst hu
    simp [extend]
  · rw [extend, modify_of_ne hu]

theorem marks_extend (enc : List Encoding) : (st.extend t enc).marks = st.marks :=
  marks_modify_eq rfl rfl

theorem marks_notEncodable (h : (st t).encodingBuilt = true) :
    (st.notEncodable t).marks = Function.update st.marks t (some false) := by
  rw [notEncodable, marks_modify (by exact h)]
  simp

/-- A type whose encoding is not built has none. -/
def Untouched (st : EncodingState n) : Prop :=
  ∀ t, (st t).encodingBuilt = false → (st t).baseTypeEncoding = []

/-- What is done between the beginning and the end of building `t`. -/
structure Advances (t : Fin n) (st st' : EncodingState n) : Prop where
  built : (st' t).encodingBuilt = true
  untouched : st'.Untouched
  kept : ∀ z, z ≠ t → (st z).encodingBuilt = true → st' z = st z

theorem Advances.modify (h : Advances t st st') (f : TypeState n → TypeState n)
    (hf : (f (st' t)).encodingBuilt = (st' t).encodingBuilt) :
    Advances t st (st'.modify t f) := by
  constructor
  · rw [modify_self, hf, h.built]
  · intro u hu
    by_cases hut : u = t
    · subst hut
      rw [modify_self, hf, h.built] at hu
      cases hu
    · rw [modify_of_ne hut] at hu ⊢
      exact h.untouched u hu
  · intro z hz hbuilt
    rw [modify_of_ne hz, h.kept z hz hbuilt]

theorem Untouched.advances (h : st.Untouched) (t : Fin n) : Advances t st (st.attempt t) := by
  constructor
  · simp [attempt]
  · intro u hu
    by_cases hut : u = t
    · subst hut
      simp [attempt] at hu
    · rw [attempt, modify_of_ne hut] at hu ⊢
      exact h u hu
  · intro z hz _
    exact modify_of_ne hz

theorem Advances.extend (h : Advances t st st') (enc : List Encoding) :
    Advances t st (st'.extend t enc) := h.modify _ rfl

theorem Advances.notEncodable (h : Advances t st st') : Advances t st (st'.notEncodable t) :=
  h.modify _ rfl

end EncodingState

open EncodingState in
/-- Building an encoding does to the marks what the search does. -/
structure Simulates {n : Nat} (build : Fin n → EncodingState n → Option (EncodingState n))
    (visit : Fin n → Marks (Fin n) → Option (Marks (Fin n))) : Prop where
  marks : ∀ u st, st.Untouched → (build u st).map marks = visit u st.marks
  built : ∀ u st st', st.Untouched → build u st = some st' → (st' u).encodingBuilt = true
  untouched : ∀ u st st', st.Untouched → build u st = some st' → st'.Untouched
  kept : ∀ u st st', st.Untouched → build u st = some st' →
    ∀ z, (st z).encodingBuilt = true → st' z = st z

namespace DataTypes

open EncodingState

variable {n : Nat} {types : DataTypes n} {t : Fin n} {st st₀ st' : EncodingState n}
  {build : Fin n → EncodingState n → Option (EncodingState n)}
  {visit : Fin n → Marks (Fin n) → Option (Marks (Fin n))}

theorem Simulates.advances (h : Simulates build visit) (hst : Advances t st₀ st) {u : Fin n}
    (hu : build u st = some st') : Advances t st₀ st' ∧ st' t = st t := by
  have ht := h.kept u st st' hst.untouched hu t hst.built
  refine ⟨⟨ht ▸ hst.built, h.untouched u st st' hst.untouched hu, fun z hz hbuilt => ?_⟩, ht⟩
  have hz' := hst.kept z hz hbuilt
  rw [h.kept u st st' hst.untouched hu z (hz'.symm ▸ hbuilt), hz']

variable {refs : List (TypeReference n)} {depth indent : Nat}

theorem superTypeLoop_advances (h : Simulates build visit) (hst : Advances t st₀ st)
    (hloop : types.superTypeLoop build t refs st = some st') : Advances t st₀ st' := by
  induction refs generalizing st with
  | nil =>
    rw [superTypeLoop, Option.some.injEq] at hloop
    exact hloop ▸ hst
  | cons ref refs ih =>
    rw [superTypeLoop] at hloop
    cases href : ref.toSuperType with
    | none => exact ih hst (by simpa [href] using hloop)
    | some u =>
      simp only [href, Option.bind_eq_some_iff] at hloop
      rcases hloop with ⟨st₁, hu, hloop⟩
      have hst₁ := (Simulates.advances h hst hu).1
      split at hloop
      · exact ih (hst₁.extend _) hloop
      · rw [Option.some.injEq] at hloop
        exact hloop ▸ hst₁.notEncodable

theorem superTypeLoop_marks (h : Simulates build visit) (hst : Advances t st₀ st) :
    (types.superTypeLoop build t refs st).map marks =
      items visit t ((refs.filterMap TypeReference.toSuperType).map .follow) st.marks := by
  induction refs generalizing st with
  | nil => rfl
  | cons ref refs ih =>
    rw [superTypeLoop]
    cases href : ref.toSuperType with
    | none =>
      rw [List.filterMap_cons_none href]
      exact ih hst
    | some u =>
      rw [List.filterMap_cons_some href, List.map_cons, items, ← h.marks u st hst.untouched]
      dsimp only
      cases hu : build u st with
      | none => simp
      | some st₁ =>
        have hst₁ := (Simulates.advances h hst hu).1
        have hbuilt := marks_eq_some_true (h.built u st st₁ hst.untouched hu)
        by_cases henc : (st₁ u).encodable = some true
        · simp only [Option.bind_some, Option.map_some, henc, hbuilt.mpr henc, if_true]
          rw [ih (hst₁.extend _), marks_extend]
        · simp only [Option.bind_some, Option.map_some, henc, mt hbuilt.mp henc, if_false]
          rw [marks_notEncodable hst₁.built]

theorem superTypeLoop_encoding (h : Simulates build visit) (hst : Advances t st₀ st)
    (hloop : types.superTypeLoop build t refs st = some st') :
    ((st t).baseTypeEncoding ≠ [] → (st' t).baseTypeEncoding ≠ []) ∧
      (refs.filterMap TypeReference.toSuperType ≠ [] → (st' t).baseTypeEncoding = [] →
        (st' t).encodable = some false) ∧
      (refs.filterMap TypeReference.toSuperType = [] → st' = st) := by
  induction refs generalizing st with
  | nil =>
    rw [superTypeLoop, Option.some.injEq] at hloop
    subst hloop
    exact ⟨fun hne => hne, fun hne => absurd rfl hne, fun _ => rfl⟩
  | cons ref refs ih =>
    rw [superTypeLoop] at hloop
    cases href : ref.toSuperType with
    | none =>
      rw [List.filterMap_cons_none href]
      exact ih hst (by simpa [href] using hloop)
    | some u =>
      rw [List.filterMap_cons_some href]
      simp only [href, Option.bind_eq_some_iff] at hloop
      rcases hloop with ⟨st₁, hu, hloop⟩
      rcases Simulates.advances h hst hu with ⟨hst₁, hsame⟩
      split at hloop
      · have hne := (ih (hst₁.extend _) hloop).1 (by simp [extend])
        exact ⟨fun _ => hne, fun _ hempty => absurd hempty hne, by simp⟩
      · rw [Option.some.injEq] at hloop
        subst hloop
        exact ⟨by simp [notEncodable, hsame], by simp [notEncodable], by simp⟩

theorem fieldLoop_advances (h : Simulates build visit) {fields : List Field} {r r' : FieldsRead n}
    (hst : Advances t st₀ st) (hloop : types.fieldLoop build t fields r st = some (r', st')) :
    Advances t st₀ st' := by
  induction fields generalizing r st with
  | nil =>
    rw [fieldLoop, Option.some.injEq, Prod.mk.injEq] at hloop
    exact hloop.2 ▸ hst
  | cons x xs ih =>
    simp only [fieldLoop] at hloop
    split at hloop
    · rw [Option.some.injEq, Prod.mk.injEq] at hloop
      exact hloop.2 ▸ hst.notEncodable
    · split at hloop
      · exact ih hst hloop
      · split at hloop
        · exact ih hst.notEncodable hloop
        · rw [Option.bind_eq_some_iff] at hloop
          rcases hloop with ⟨st₁, hu, hloop⟩
          have hst₁ := (Simulates.advances h hst hu).1.extend
          split at hloop
          · exact ih (hst₁ _) hloop
          · rw [Option.some.injEq, Prod.mk.injEq] at hloop
            exact hloop.2 ▸ (hst₁ _).notEncodable

theorem fieldItems_see (r : FieldsRead n) (x : Field) (xs : List Field) :
    types.fieldItems (x :: xs) r.isEnum r.isSubType =
      if (r.see x).isEnum = (r.see x).isSubType then [.stops]
      else if (r.see x).isEnum = true then
        types.fieldItems xs (r.see x).isEnum (r.see x).isSubType
      else types.fieldItem x :: types.fieldItems xs (r.see x).isEnum (r.see x).isSubType := rfl

theorem fieldLoop_marks (h : Simulates build visit) {fields : List Field} {r : FieldsRead n}
    (hst : Advances t st₀ st) :
    (types.fieldLoop build t fields r st).map (fun p => p.2.marks) =
      items visit t (types.fieldItems fields r.isEnum r.isSubType) st.marks := by
  induction fields generalizing r st with
  | nil => rfl
  | cons x xs ih =>
    rw [fieldItems_see]
    simp only [fieldLoop]
    by_cases hkind : (r.see x).isEnum = (r.see x).isSubType
    · rw [if_pos hkind, if_pos hkind, items, Option.map_some, marks_notEncodable hst.built]
    · rw [if_neg hkind, if_neg hkind]
      by_cases henum : (r.see x).isEnum = true
      · rw [if_pos henum, if_pos henum]
        exact ih hst
      · rw [if_neg henum, if_neg henum, fieldItem]
        cases hfield : types.fieldType x with
        | none =>
          dsimp only
          rw [items, ih hst.notEncodable, marks_notEncodable hst.built]
        | some u =>
          dsimp only
          rw [items, ← h.marks u st hst.untouched]
          cases hu : build u st with
          | none => rfl
          | some st₁ =>
            have hst₁ := (Simulates.advances h hst hu).1
            have hbuilt := marks_eq_some_true (h.built u st st₁ hst.untouched hu)
            by_cases henc : (st₁ u).encodable = some true
            · simp only [Option.bind_some, Option.map_some, extend_encodable, henc,
                hbuilt.mpr henc, if_true]
              rw [ih (hst₁.extend _), marks_extend]
            · simp only [Option.bind_some, Option.map_some, extend_encodable, henc,
                mt hbuilt.mp henc, if_false]
              rw [marks_notEncodable (hst₁.extend _).built, marks_extend]

theorem buildEncoding_of_not_built (h : (st t).encodingBuilt = false) :
    types.buildEncoding (depth + 1) indent t st =
      if isBuiltinByString (types.browseName t) = true then
        some ((st.attempt t).modify t fun s =>
          { s with baseTypeEncoding := [.text (types.browseName t)], encodable := some true })
      else
        match types.definition t with
        | none =>
          (types.superTypeLoop (types.buildEncoding depth (indent + 1)) t (types.references t)
            (st.attempt t)).map fun st => st.modify t superTypesDone
        | some fields =>
          (types.fieldLoop (types.buildEncoding depth (indent + 1)) t fields ⟨true, true, [], []⟩
            (st.attempt t)).map fun (r, st) => st.modify t (fieldsDone indent r) := by
  rw [buildEncoding, if_neg (by simp [h])]

theorem superTypesDone_built (s : TypeState n) :
    (superTypesDone s).encodingBuilt = s.encodingBuilt := by
  unfold superTypesDone
  split <;> rfl

theorem fieldsDone_built (indent : Nat) (r : FieldsRead n) (s : TypeState n) :
    (fieldsDone indent r s).encodingBuilt = s.encodingBuilt := by
  simp only [fieldsDone]
  split
  · rfl
  · split <;> rfl

theorem fieldsDone_encodable (indent : Nat) (r : FieldsRead n) (s : TypeState n) :
    (fieldsDone indent r s).encodable = s.encodable := by
  simp only [fieldsDone]
  split
  · rfl
  · split <;> rfl

theorem buildEncoding_advances (h : Simulates (types.buildEncoding depth (indent + 1)) visit)
    (hst : st.Untouched) (hbuilt : (st t).encodingBuilt = false)
    (hrun : types.buildEncoding (depth + 1) indent t st = some st') : Advances t st st' := by
  rw [buildEncoding_of_not_built hbuilt] at hrun
  have hstart : Advances t st (st.attempt t) := hst.advances t
  split at hrun
  · rw [Option.some.injEq] at hrun
    exact hrun ▸ hstart.modify _ rfl
  · split at hrun
    · rw [Option.map_eq_some_iff] at hrun
      rcases hrun with ⟨st₁, hloop, rfl⟩
      exact (superTypeLoop_advances h hstart hloop).modify _ (superTypesDone_built _)
    · rw [Option.map_eq_some_iff] at hrun
      rcases hrun with ⟨⟨r, st₁⟩, hloop, rfl⟩
      exact (fieldLoop_advances h hstart hloop).modify _ (fieldsDone_built _ _ _)

theorem marks_attempt : (st.attempt t).marks = Function.update st.marks t (some true) := by
  rw [attempt, marks_modify rfl]
  simp

theorem superTypesDone_marks (h : Simulates (types.buildEncoding depth (indent + 1)) visit)
    (hst : st.Untouched) (hbuilt : (st t).encodingBuilt = false) :
    ((types.superTypeLoop (types.buildEncoding depth (indent + 1)) t (types.references t)
      (st.attempt t)).map fun st => (st.modify t superTypesDone).marks) =
      items visit t
        (if types.superTypes t = [] then [.stops] else (types.superTypes t).map .follow)
        (st.attempt t).marks := by
  have hstart : Advances t st (st.attempt t) := hst.advances t
  have hmarks := @superTypeLoop_marks _ types _ _ _ _ _ (types.references t) h hstart
  have hempty : ((st.attempt t) t).baseTypeEncoding = [] := by simp [attempt, hst t hbuilt]
  split
  · rename_i hsuper
    rw [← superTypes, hsuper] at hmarks
    cases hloop : types.superTypeLoop (types.buildEncoding depth (indent + 1)) t
        (types.references t) (st.attempt t) with
    | none => simp [hloop, items] at hmarks
    | some st₁ =>
      rcases superTypeLoop_encoding h hstart hloop with ⟨-, -, hsame⟩
      rw [Option.map_some, hsame hsuper, items,
        marks_modify (by rw [superTypesDone_built, hstart.built])]
      simp [superTypesDone, hempty]
  · rename_i hsuper
    rw [← superTypes] at hmarks
    rw [← hmarks]
    cases hloop : types.superTypeLoop (types.buildEncoding depth (indent + 1)) t
        (types.references t) (st.attempt t) with
    | none => rfl
    | some st₁ =>
      rcases superTypeLoop_encoding h hstart hloop with ⟨-, hbad, -⟩
      rw [Option.map_some, Option.map_some, marks_modify_eq (superTypesDone_built _)]
      by_cases hnil : (st₁ t).baseTypeEncoding = []
      · simp [superTypesDone, hnil, hbad hsuper hnil]
      · simp [superTypesDone, hnil]

theorem buildEncoding_simulates (types : DataTypes n) (depth indent : Nat) :
    Simulates (types.buildEncoding depth indent) (search types.plan depth) := by
  induction depth generalizing indent with
  | zero =>
    constructor
    · intro u st _
      rfl
    all_goals
      intro u st st' _ h
      cases h
  | succ depth ih =>
    constructor
    · intro u st hst
      cases hbuilt : (st u).encodingBuilt with
      | true =>
        rw [buildEncoding, if_pos hbuilt,
          search_of_marked (b := decide ((st u).encodable = some true))
          (by simp [marks, hbuilt]), Option.map_some]
      | false =>
        have hstart : Advances u st (st.attempt u) := hst.advances u
        rw [buildEncoding_of_not_built hbuilt, search_of_unmarked (by simp [marks, hbuilt]), plan,
          ← marks_attempt]
        by_cases hb : isBuiltinByString (types.browseName u) = true
        · rw [if_pos hb, if_pos hb, items, Option.map_some, marks_modify_eq rfl]
          simp [attempt]
        · rw [if_neg hb, if_neg hb]
          cases hdef : types.definition u with
          | none =>
            dsimp only
            rw [Option.map_map]
            exact superTypesDone_marks (ih _) hst hbuilt
          | some fields =>
            dsimp only
            rw [Option.map_map, ← fieldLoop_marks (ih _) hstart (r := ⟨true, true, [], []⟩)]
            refine congrArg (Option.map · _) (funext fun p => ?_)
            exact marks_modify_eq (fieldsDone_built _ _ _) (fieldsDone_encodable _ _ _)
    · intro u st st' hst h
      cases hbuilt : (st u).encodingBuilt with
      | true =>
        rw [buildEncoding, if_pos hbuilt, Option.some.injEq] at h
        exact h ▸ hbuilt
      | false => exact (buildEncoding_advances (ih _) hst hbuilt h).built
    · intro u st st' hst h
      cases hbuilt : (st u).encodingBuilt with
      | true =>
        rw [buildEncoding, if_pos hbuilt, Option.some.injEq] at h
        exact h ▸ hst
      | false => exact (buildEncoding_advances (ih _) hst hbuilt h).untouched
    · intro u st st' hst h z hz
      cases hbuilt : (st u).encodingBuilt with
      | true =>
        rw [buildEncoding, if_pos hbuilt, Option.some.injEq] at h
        rw [h]
      | false =>
        refine (buildEncoding_advances (ih _) hst hbuilt h).kept z ?_ hz
        rintro rfl
        rw [hbuilt] at hz
        cases hz

theorem buildEncodingRules_simulates {order : List (Fin n)} (hst : st.Untouched) :
    (types.buildEncodingRules depth order st).map EncodingState.marks =
      searchAll types.plan depth order st.marks := by
  induction order generalizing st with
  | nil => rfl
  | cons t ts ih =>
    have h := buildEncoding_simulates types depth 0
    rw [buildEncodingRules, searchAll, ← h.marks t st hst]
    cases ht : types.buildEncoding depth 0 t st with
    | none => rfl
    | some st₁ =>
      exact ih (h.untouched t st st₁ hst ht)

theorem init_untouched : EncodingState.Untouched (fun _ : Fin n => TypeState.init n) :=
  fun _ _ => rfl

theorem init_marks : EncodingState.marks (fun _ : Fin n => TypeState.init n) = fun _ => none := rfl

theorem buildEncodingRules_terminates (types : DataTypes n) (order : List (Fin n)) :
    ∃ st, types.buildEncodingRules (n + 1) order (fun _ => TypeState.init n) = some st ∧
      searchAll types.plan (n + 1) order (fun _ => none) = some st.marks := by
  have hmarks : (unmarked (fun _ : Fin n => (none : Option Bool))).card < n + 1 := by
    refine (Finset.card_le_univ _).trans_lt ?_
    simp
  rcases @searchAll_terminates _ _ _ types.plan _ _ order hmarks with ⟨m, hm⟩
  have hsim := @buildEncodingRules_simulates _ types _ (n + 1) order
    init_untouched
  rw [init_marks, hm, Option.map_eq_some_iff] at hsim
  rcases hsim with ⟨st, hst, rfl⟩
  exact ⟨st, hst, hm⟩

theorem computesExactly_of_honest (h : Honest types.plan) : types.ComputesExactly := by
  intro order horder
  rcases types.buildEncodingRules_terminates order with ⟨st, hst, hm⟩
  refine ⟨st, hst, fun t => ?_⟩
  have hbuilt : (st t).encodingBuilt = true := by
    have hmarked := searchAll_marks hm (horder t)
    by_contra hnot
    simp [marks, hnot] at hmarked
  rw [← marks_eq_some_true hbuilt, traceable_iff]
  exact ⟨searchAll_honest h hm, searchAll_good hm (horder t)⟩

theorem computesExactly_of_acyclic (h : ∀ t, ¬ TransGen (Follows types.plan) t t) :
    types.ComputesExactly := computesExactly_of_honest (honest_of_acyclic h)

/-- The result is right for every order if and only if no way through the definitions ends at a type
that is marked as encodable and cannot be traced. -/
theorem computesExactly_iff (types : DataTypes n) :
    types.ComputesExactly ↔ Honest types.plan := by
  constructor
  · intro h
    refine @honest_of_searchAll _ _ _ (n + 1) _ (by simp) fun order m horder hm t ht => ?_
    rcases h order horder with ⟨st, hst, hexact⟩
    have hsim := @buildEncodingRules_simulates _ types _ (n + 1) order
      init_untouched
    rw [hst, init_marks, hm, Option.map_some, Option.some.injEq] at hsim
    rw [← hsim] at ht
    have hbuilt : (st t).encodingBuilt = true := by
      by_contra hnot
      simp [marks, hnot] at ht
    exact traceable_iff.mp ((hexact t).mp ((marks_eq_some_true hbuilt).mp ht))
  · exact computesExactly_of_honest

def selfContained : DataTypes 1 where
  id := fun _ => { i := none, b := none, g := none, s := some ['A'], ns := 0 }
  browseName := fun _ => ['A']
  references := fun _ => []
  definition := fun _ => some [⟨some ['f'], some ['s', '=', 'A'], none, none⟩]

theorem selfContained_plan (t : Fin 1) : selfContained.plan t = [.follow t] := by
  fin_cases t
  rfl

theorem selfContained_not_traceable (t : Fin 1) : ¬ selfContained.Traceable t := by
  rw [traceable_iff]
  intro h
  induction h with
  | intro t _ _ _ ih => exact ih t (by simp [selfContained_plan])

/-- It counts as encodable, and leads to no builtin type. -/
theorem selfContained_not_exact : ¬ selfContained.ComputesExactly := by
  intro h
  rcases h [0] (by decide) with ⟨st, hst, hexact⟩
  have henc : (st 0).encodable = some true := by
    rw [← Option.some.inj hst]
    rfl
  exact selfContained_not_traceable 0 ((hexact 0).mp henc)

end DataTypes

end FactoryThing.Nodesets
