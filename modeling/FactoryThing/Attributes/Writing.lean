import FactoryThing.Variables.Reading

/-!
# The Write service

`Service_Write` for all attributes (`src/server/ua_services_attribute.c:1040-1210`) without
multithreading and external namespaces: a node is edited in place. The writers of the value, the
data type, the value rank and the array dimensions see the variable in the node.
-/

namespace FactoryThing.Attributes

open AddressSpace Variables Variants

variable {α : Type}

/-! ## What is written -/

structure WriteValue (α : Type) where
  nodeId : NodeKey
  attributeId : UInt32
  indexRange : UaString
  value : DataValue α

/-- Elements as the contents of attributes. -/
structure Contents (α : Type) where
  qualifiedName : α → AddressSpace.QualifiedName
  localizedText : α → AddressSpace.LocalizedText
  uint32 : α → UInt32
  boolean : α → Bool
  byte : α → UInt8
  nodeId : α → NodeKey
  int32 : α → Int
  double : α → UInt64

/-- What the service finds outside of the address space. -/
structure WriteWorld (α : Type) extends Outside α where
  contents : Contents α

/-- The nodes as the writers of variables see them. -/
abbrev variablesOf (sv : Server (NodeAttributes α)) : Server (VariableAttributes α) :=
  sv.mapAttributes fun a => a.toVariableAttributes

abbrev variableOf (node : Node (NodeAttributes α)) : VariableNode α :=
  node.mapAttributes fun a => a.toVariableAttributes

/-- The node with the attributes of a variable. -/
def withVariable (node : Node (NodeAttributes α)) (edited : VariableNode α) :
    Node (NodeAttributes α) :=
  { node with attributes := { node.attributes with toVariableAttributes := edited.attributes } }

/-- The node with other attributes. -/
def edit (node : Node (NodeAttributes α)) (f : NodeAttributes α → NodeAttributes α) :
    Node (NodeAttributes α) :=
  { node with attributes := f node.attributes }

/-- The result of a write: the node, and the status code. -/
abbrev Edited (α : Type) := Node (NodeAttributes α) × StatusCode

variable (w : WriteWorld α) (sv : Server (NodeAttributes α)) (session : Option AccessControl)
  (node : Node (NodeAttributes α))

/-- `getUserWriteMask` (`:21-30`); the local administrator is asked for nothing (`none`). -/
def userWriteMask : UInt32 :=
  match session with
  | none => 0xFFFFFFFF
  | some access => getUserWriteMask access node

/-- `getUserAccessLevel` (`:32-41`). -/
def userAccessLevel : UInt8 :=
  match session with
  | none => 0xFF
  | some access => getUserAccessLevel access node

def accessLevelMaskWrite : UInt8 := 0x02

/-- The content of a scalar that passes `CHECK_DATATYPE_SCALAR` (`:1044-1050`). -/
def scalarOf (type : Builtin) (v : DataValue α) : Option α :=
  if v.hasValue = true ∧ v.value.type = some (builtinType type) then
    match v.value.data with
    | .scalar x => some x
    | _ => none
  else none

/-- The elements of an array that passes `CHECK_DATATYPE_ARRAY` (`:1052-1058`). -/
def arrayOf (type : Builtin) (v : DataValue α) : Option (List α) :=
  if v.hasValue = true ∧ v.value.type = some (builtinType type) ∧ v.value.data.isScalar = false then
    some v.value.data.items
  else none

/-- `CHECK_NODECLASS_WRITE`, `CHECK_USERWRITEMASK` (`:1060-1070`) and the check of the data type,
and then the assignment. -/
def writeChecked {β : Type} (classes : List NodeClass) (bit : UInt32) (content : Option β)
    (assign : β → RangeM (Edited α)) : RangeM (Edited α) :=
  if node.nodeClass ∉ classes then return (node, StatusCode.badNodeClassInvalid)
  else if userWriteMask session node &&& (1 <<< bit) = 0 then
    return (node, StatusCode.badUserAccessDenied)
  else
    match content with
    | none => return (node, StatusCode.badTypeMismatch)
    | some x => assign x

/-- An attribute that is freed and copied anew; whether it could be is not checked. -/
def copied {β : Type} (x init : β) : RangeM β := do
  let retval ← answer w.copyAttribute
  return if retval = StatusCode.good then x else init

def assignCopy {β : Type} (x init : β) (assign : β → Node (NodeAttributes α)) :
    RangeM (Edited α) := do
  let copy ← copied w x init
  return (assign copy, StatusCode.good)

def assignPlain (f : NodeAttributes α → NodeAttributes α) : RangeM (Edited α) :=
  return (edit node f, StatusCode.good)

/-- `writeIsAbstractAttribute` (`:687-707`). -/
def writeIsAbstractAttribute (value : Bool) : RangeM (Edited α) :=
  if node.nodeClass ∈ [.objectType, .referenceType, .variableType, .dataType] then
    return ({ node with isAbstract := value }, StatusCode.good)
  else return (node, StatusCode.badNodeClassInvalid)

def onVariable (write : RangeM (VariableNode α × StatusCode)) : RangeM (Edited α) := do
  let (edited, retval) ← write
  return (withVariable node edited, retval)

/-- The Value attribute (`:1146-1160`): of a variable the right to write it is in its access
level. -/
def writeValue (v : DataValue α) (indexRange : UaString) : RangeM (Edited α) :=
  if node.nodeClass ∉ [.variable, .variableType] then
    return (node, StatusCode.badNodeClassInvalid)
  else if node.nodeClass = .variable ∧
      userAccessLevel session node &&& accessLevelMaskWrite = 0 then
    return (node, StatusCode.badUserAccessDenied)
  else if node.nodeClass ≠ .variable ∧ userWriteMask session node &&& ((1 : UInt32) <<< 21) = 0 then
    return (node, StatusCode.badUserAccessDenied)
  else
    onVariable node
      (writeValueAttribute w.toOutside (variablesOf sv) (variableOf node) v indexRange)

/-- `copyAttributeIntoNode` (`:1072-1210`), by the number of the attribute. The event notifiers of
objects and of views are at the same place. -/
def copyAttributeIntoNode (wvalue : WriteValue α) : RangeM (Edited α) :=
  let v := wvalue.value
  match wvalue.attributeId.toNat with
  | 1 | 2 | 7 | 18 | 22 => return (node, StatusCode.badWriteNotSupported)
  | 3 => writeChecked session node everyClass 2 (scalarOf .qualifiedName v) fun x =>
      assignCopy w (w.contents.qualifiedName x) ⟨0, []⟩ fun name => { node with browseName := name }
  | 4 => writeChecked session node everyClass 6 (scalarOf .localizedText v) fun x =>
      assignCopy w (w.contents.localizedText x) ⟨[], []⟩ fun text =>
        { node with displayName := text }
  | 5 => writeChecked session node everyClass 5 (scalarOf .localizedText v) fun x =>
      assignCopy w (w.contents.localizedText x) ⟨[], []⟩ fun text =>
        edit node fun a => { a with description := text }
  | 6 => writeChecked session node everyClass 20 (scalarOf .uint32 v) fun x =>
      assignPlain node fun a => { a with writeMask := w.contents.uint32 x }
  | 8 => writeChecked session node everyClass 11 (scalarOf .boolean v) fun x =>
      writeIsAbstractAttribute node (w.contents.boolean x)
  | 9 => writeChecked session node [.referenceType] 15 (scalarOf .boolean v) fun x =>
      assignPlain node fun a => { a with symmetric := w.contents.boolean x }
  | 10 => writeChecked session node [.referenceType] 10 (scalarOf .localizedText v) fun x =>
      assignCopy w (w.contents.localizedText x) ⟨[], []⟩ fun text =>
        edit node fun a => { a with inverseName := text }
  | 11 => writeChecked session node [.view] 3 (scalarOf .boolean v) fun x =>
      assignPlain node fun a => { a with containsNoLoops := w.contents.boolean x }
  | 12 => writeChecked session node [.view, .object] 7 (scalarOf .byte v) fun x =>
      assignPlain node fun a => { a with eventNotifier := w.contents.byte x }
  | 13 => writeValue w sv session node v wvalue.indexRange
  | 14 => writeChecked session node [.variable, .variableType] 4 (scalarOf .nodeId v) fun x =>
      onVariable node (writeDataTypeAttributeWithVT w.toOutside (variablesOf sv) (variableOf node)
        (w.contents.nodeId x))
  | 15 => writeChecked session node [.variable, .variableType] 19 (scalarOf .int32 v) fun x =>
      onVariable node (writeValueRankAttributeWithVT w.toOutside (variablesOf sv) (variableOf node)
        (w.contents.int32 x))
  | 16 => writeChecked session node [.variable, .variableType] 1 (arrayOf .uint32 v) fun xs =>
      onVariable node (writeArrayDimensionsAttribute w.toOutside (variablesOf sv) (variableOf node)
        (xs.map w.contents.uint32))
  | 17 => writeChecked session node [.variable] 0 (scalarOf .byte v) fun x =>
      assignPlain node fun a => { a with accessLevel := w.contents.byte x }
  | 19 => writeChecked session node [.variable] 12 (scalarOf .double v) fun x =>
      assignPlain node fun a => { a with minimumSamplingInterval := w.contents.double x }
  | 20 => writeChecked session node [.variable] 9 (scalarOf .boolean v) fun x =>
      assignPlain node fun a => { a with historizing := w.contents.boolean x }
  | 21 => writeChecked session node [.method] 8 (scalarOf .boolean v) fun x =>
      assignPlain node fun a => { a with executable := w.contents.boolean x }
  | _ => return (node, StatusCode.badAttributeIdInvalid)

/-- `UA_Server_editNode` with `copyAttributeIntoNode` (`src/server/ua_server_utils.c:261-271`). -/
def writeNode (wvalue : WriteValue α) : RangeM (Server (NodeAttributes α) × StatusCode) :=
  match sv.get wvalue.nodeId with
  | none => return (sv, StatusCode.badNodeIdUnknown)
  | some node => do
    let (edited, retval) ← copyAttributeIntoNode w sv session node wvalue
    return editNode sv wvalue.nodeId fun _ => (edited, retval)

/-- The loop of `Service_Write` (`:1229-1235`). -/
def writeNodes : Server (NodeAttributes α) → List (WriteValue α) →
    RangeM (Server (NodeAttributes α) × List StatusCode)
  | sv, [] => return (sv, [])
  | sv, wvalue :: wvalues => do
    let (sv, retval) ← writeNode w sv session wvalue
    let (sv, results) ← writeNodes sv wvalues
    return (sv, retval :: results)

/-- `Service_Write` (`:1212-1235`): the server, the status of the request and the results; `alloc`
tells whether there is memory for these. -/
def serviceWrite (nodesToWrite : List (WriteValue α)) (alloc : Bool) :
    RangeM (Server (NodeAttributes α) × StatusCode × List StatusCode) := do
  if nodesToWrite = [] then return (sv, StatusCode.badNothingToDo, [])
  else if alloc = false then return (sv, StatusCode.badOutOfMemory, [])
  else
    let (sv, results) ← writeNodes w session sv nodesToWrite
    return (sv, StatusCode.good, results)

end FactoryThing.Attributes
