import FactoryThing.Variables.Reading

/-!
# The Call service

`Service_Call` (`src/server/ua_services_call.c`) without external namespaces. A method is a function
of the application; it may do anything to the address space, so that the next method of the same
request is called in another one.
-/

namespace FactoryThing.Methods

open AddressSpace Variables Variants
open Encoding (int32Max)

/-- `UA_Argument` without its name and its description. -/
structure Argument where
  dataType : NodeKey
  valueRank : Int
  arrayDimensions : List UInt32
  deriving DecidableEq

/-- The attributes of a node with what a method has beside them (`src/server/ua_nodes.h:187-196`).
The functions of the application are numbered. -/
structure CallAttributes (α : Type) extends NodeAttributes α where
  methodHandle : Nat
  attachedMethod : Option Nat

/-- The nodes as the type check sees them. -/
abbrev variablesOf {α : Type} (sv : Server (CallAttributes α)) : Server (VariableAttributes α) :=
  sv.mapAttributes fun a => a.toVariableAttributes

/-- The session; the one of the local administrator has all rights. -/
structure CallSession where
  isAdmin : Bool
  sessionId : NodeKey
  sessionHandle : Nat

structure CallMethodRequest (α : Type) where
  objectId : NodeKey
  methodId : NodeKey
  inputArguments : List (UaVariant α)

/-- The arguments of the function behind a method (`UA_MethodCallback`). -/
structure Invocation (α : Type) where
  attachedMethod : Nat
  methodHandle : Nat
  objectId : NodeKey
  sessionId : NodeKey
  sessionHandle : Nat
  input : List (UaVariant α)
  output : List (UaVariant α)

structure CallMethodResult (α : Type) where
  statusCode : StatusCode
  outputArguments : List (UaVariant α)

/-- What the service finds outside of the address space: besides what the type check does, the
description of `UA_Argument` and the elements of this type, the access control plug-in, the
functions of the application, and what is left at the place of `arrayLength` where a variable has a
data source instead of a value. -/
structure CallWorld (α : Type) extends Outside α where
  argumentType : TypeDescription
  argument : α → Argument
  getUserExecutableOnObject : NodeKey → Nat → NodeKey → NodeKey → Bool
  method : Server (CallAttributes α) → Invocation α →
    Server (CallAttributes α) × StatusCode × List (UaVariant α)
  strayArrayLength : NodeKey → Nat

variable {α : Type} (w : CallWorld α) (sv : Server (CallAttributes α)) (session : CallSession)

/-- `"InputArguments"`. -/
def inputArguments : List UInt8 :=
  [73, 110, 112, 117, 116, 65, 114, 103, 117, 109, 101, 110, 116, 115]

/-- `"OutputArguments"`. -/
def outputArguments : List UInt8 :=
  [79, 117, 116, 112, 117, 116, 65, 114, 103, 117, 109, 101, 110, 116, 115]

/-- The target of a reference, when it is the property that is looked for (`:15-26`). -/
def argumentsProperty (withBrowseName : List UInt8) (ref : ReferenceNode) :
    Option (Node (CallAttributes α)) :=
  if ref.isInverse = false ∧ ref.referenceTypeId = hasProperty then
    (sv.get ref.targetId.nodeId).filter fun refTarget =>
      decide (refTarget.nodeClass = .variable) && refTarget.browseName.namespaceIndex == 0 &&
        refTarget.browseName.name == withBrowseName
  else none

/-- `getArgumentsVariableNode` (`:10-29`). -/
def getArgumentsVariableNode (ofMethod : Node (CallAttributes α)) (withBrowseName : List UInt8) :
    Option (Node (CallAttributes α)) :=
  ofMethod.references.findSome? (argumentsProperty sv withBrowseName)

/-- The loop over the arguments (`:47-51`), with the arguments as they have been converted. -/
def checkArguments (sv : Server (CallAttributes α)) :
    List Argument → List (UaVariant α) → StatusCode → RangeM (StatusCode × List (UaVariant α))
  | req :: reqs, arg :: args, retval => do
    let (status, arg) ← typeCheckValue w.toOutside (variablesOf sv) req.dataType req.valueRank
      req.arrayDimensions arg none true
    let (retval, args) ← checkArguments sv reqs args (retval ||| status)
    return (retval, arg :: args)
  | _, args, retval => return (retval, args)

/-- `argumentsConformsToDefinition` (`:31-53`). -/
def argumentsConformsToDefinition (argRequirements : Node (CallAttributes α))
    (args : List (UaVariant α)) : RangeM (StatusCode × List (UaVariant α)) :=
  match argRequirements.attributes.value with
  -- a pointer to a function of the data source is not the address of the description
  | .dataSource => return (StatusCode.badInternalError, args)
  | .data value =>
    if value.value.type ≠ some w.argumentType then return (StatusCode.badInternalError, args)
    else
      let argReqs := value.value.data.items.map w.argument
      if argReqs.length > args.length then return (StatusCode.badArgumentsMissing, args)
      else if argReqs.length ≠ args.length then return (StatusCode.badInvalidArgument, args)
      else checkArguments w sv argReqs args StatusCode.good

/-- The method node with the function that is attached to it (`:60-74`). -/
def verifyMethod (methodId : NodeKey) : Except StatusCode (Node (CallAttributes α) × Nat) :=
  match sv.get methodId with
  | none => .error StatusCode.badMethodInvalid
  | some methodCalled =>
    if methodCalled.nodeClass ≠ .method then .error StatusCode.badNodeClassInvalid
    else
      match methodCalled.attributes.attachedMethod with
      | none => .error StatusCode.badInternalError
      | some attachedMethod => .ok (methodCalled, attachedMethod)

/-- Whether the session may run the method on the object (`:89-93`). -/
def isExecutable (request : CallMethodRequest α) (methodCalled : Node (CallAttributes α)) : Bool :=
  if session.isAdmin then methodCalled.attributes.executable
  else methodCalled.attributes.executable && w.getUserExecutableOnObject session.sessionId
    session.sessionHandle request.objectId request.methodId

/-- The checks of the object node and of the access rights (`:76-99`). -/
def verifyAccess (request : CallMethodRequest α) (methodCalled : Node (CallAttributes α)) :
    Except StatusCode Unit :=
  match sv.get request.objectId with
  | none => .error StatusCode.badNodeIdInvalid
  | some withObject =>
    if withObject.nodeClass ≠ .object ∧ withObject.nodeClass ≠ .objectType then
      .error StatusCode.badNodeClassInvalid
    else if isExecutable w session request methodCalled = false then
      .error StatusCode.badNotWritable
    else .ok ()

/-- The search for a reference from the object (`:105-116`) among those of the method. -/
def findMethodReference (objectId : NodeKey) : List ReferenceNode → RangeM Bool
  | [] => return false
  | ref :: refs =>
    if ref.isInverse ∧ ref.targetId.nodeId = objectId then
      match isNodeInTree sv hasComponent [hasSubtype] w.depth ref.referenceTypeId with
      | none => throw RangeFault.diverges
      | some true => return true
      | some false => findMethodReference objectId refs
    else findMethodReference objectId refs

/-- The check of the input arguments (`:122-138`), with the arguments as they have been
converted. -/
def checkInput (methodCalled : Node (CallAttributes α)) (args : List (UaVariant α)) :
    RangeM (StatusCode × List (UaVariant α)) :=
  match getArgumentsVariableNode sv methodCalled inputArguments with
  | none =>
    return (if args.length > 0 then StatusCode.badInvalidArgument else StatusCode.good, args)
  | some argRequirements => argumentsConformsToDefinition w sv argRequirements args

/-- The number of output arguments: `arrayLength`, whatever the variable holds (`:142-153`). -/
def outputArgumentsSize (methodCalled : Node (CallAttributes α)) : Nat :=
  match getArgumentsVariableNode sv methodCalled outputArguments with
  | none => 0
  | some node =>
    match node.attributes.value with
    | .data value => value.value.data.arrayLength
    | .dataSource => w.strayArrayLength node.nodeId

/-- `UA_Array_new(size, &UA_TYPES[UA_TYPES_VARIANT])`; an array of length zero takes no memory. -/
def newVariants (size : Nat) : RangeM (Option (List (UaVariant α))) := do
  if size > int32Max then return none
  else if size = 0 then return some []
  else if ← malloc w.elements then return some (List.replicate size emptyVariant)
  else return none

/-- `Service_Call_single` (`:55-163`) up to the call: its arguments, or why there is none. -/
def prepareCall (request : CallMethodRequest α) : RangeM (Except StatusCode (Invocation α)) :=
  match verifyMethod sv request.methodId with
  | .error statusCode => return .error statusCode
  | .ok (methodCalled, attachedMethod) =>
    match verifyAccess w sv session request methodCalled with
    | .error statusCode => return .error statusCode
    | .ok () => do
      if (← findMethodReference w sv request.objectId methodCalled.references) = false then
        return .error StatusCode.badMethodInvalid
      let (statusCode, input) ← checkInput w sv methodCalled request.inputArguments
      if statusCode ≠ StatusCode.good then return .error statusCode
      match ← newVariants w (outputArgumentsSize w sv methodCalled) with
      | none => return .error StatusCode.badOutOfMemory
      | some output =>
        return .ok
          { attachedMethod := attachedMethod
            methodHandle := methodCalled.attributes.methodHandle
            objectId := request.objectId
            sessionId := session.sessionId
            sessionHandle := session.sessionHandle
            input := input
            output := output }

/-- A method that has been run: where, for what request, and with what arguments. -/
structure Performed (α : Type) where
  server : Server (CallAttributes α)
  request : CallMethodRequest α
  invocation : Invocation α

/-- `Service_Call_single`, with the method if it has been run. -/
def serviceCallSingle (request : CallMethodRequest α) :
    RangeM (Server (CallAttributes α) × CallMethodResult α × Option (Performed α)) := do
  match ← prepareCall w sv session request with
  | .error statusCode => return (sv, ⟨statusCode, []⟩, none)
  | .ok invocation =>
    let (after, statusCode, output) := w.method sv invocation
    return (after, ⟨statusCode, output⟩, some ⟨sv, request, invocation⟩)

/-- The loop of `Service_Call` (`:200-205`). -/
def callEach : Server (CallAttributes α) → List (CallMethodRequest α) →
    RangeM (Server (CallAttributes α) × List (CallMethodResult α) × List (Performed α))
  | sv, [] => return (sv, [], [])
  | sv, request :: requests => do
    let (sv, result, performed) ← serviceCallSingle w sv session request
    let (sv, results, rest) ← callEach sv requests
    return (sv, result :: results, performed.toList ++ rest)

/-- What `Service_Call` leaves: the server, the status of the whole request, the results, and the
methods that have been run. -/
structure Called (α : Type) where
  server : Server (CallAttributes α)
  serviceResult : StatusCode
  results : List (CallMethodResult α)
  performed : List (Performed α)

/-- `Service_Call` (`:165-206`); `alloc` tells whether there is memory for the results. -/
def serviceCall (methodsToCall : List (CallMethodRequest α)) (alloc : Bool) :
    RangeM (Called α) := do
  if methodsToCall = [] then return ⟨sv, StatusCode.badNothingToDo, [], []⟩
  else if alloc = false then return ⟨sv, StatusCode.badOutOfMemory, [], []⟩
  else
    let (sv, results, performed) ← callEach w session sv methodsToCall
    return ⟨sv, StatusCode.good, results, performed⟩

end FactoryThing.Methods
