import FactoryThing.Methods.Call
import FactoryThing.Variables.Conformance

/-!
# Which methods are run

What `Service_Call` makes sure of before it runs a method, and what it misses: the type check counts
one dimension for every array, and the number of output arguments is taken from whatever the
variable OutputArguments holds, where a single Argument has the array length zero.
-/

namespace FactoryThing.Methods

open AddressSpace Variables Variants Stateful Relation
open Encoding (int32Max)

variable {α : Type}

/-- The arguments that a property of the method declares; without the property there are none. -/
def declaredArguments (w : CallWorld α) (sv : Server (CallAttributes α))
    (ofMethod : Node (CallAttributes α)) (withBrowseName : List UInt8) : Option (List Argument) :=
  match getArgumentsVariableNode sv ofMethod withBrowseName with
  | none => some []
  | some node =>
    match node.attributes.value with
    | .dataSource => none
    | .data v =>
      if v.value.type = some w.argumentType ∨ v.value.data.items = [] then
        some (v.value.data.items.map w.argument)
      else none

/-- The value conforms to the declaration of an argument. -/
def Argument.Accepts (sv : Server (CallAttributes α)) (arg : Argument) (value : UaVariant α) :
    Prop :=
  Conforms (variablesOf sv) arg.dataType arg.valueRank arg.arrayDimensions value

/-- The object has a HasComponent reference, or one of a subtype, to the method. The method holds
its other end. -/
def HasMethod (sv : Server (CallAttributes α)) (objectId : NodeKey)
    (methodCalled : Node (CallAttributes α)) : Prop :=
  ∃ ref ∈ methodCalled.references, ref.isInverse = true ∧ ref.targetId.nodeId = objectId ∧
    ReflTransGen (HasSupertype (variablesOf sv)) ref.referenceTypeId hasComponent

/-- The method may be run: it is there, executable for the session and a component of the object,
the input arguments are those of the request and conform to what is declared, and there are as many
output arguments as are declared. -/
structure Guarded (w : CallWorld α) (session : CallSession) (call : Performed α) : Prop where
  isObject : ∃ withObject, call.server.get call.request.objectId = some withObject ∧
    (withObject.nodeClass = .object ∨ withObject.nodeClass = .objectType)
  sent : List.Forall₂ (Converted w.toOutside) call.request.inputArguments call.invocation.input
  isMethod : ∃ methodCalled, call.server.get call.request.methodId = some methodCalled ∧
    methodCalled.nodeClass = .method ∧
    methodCalled.attributes.attachedMethod = some call.invocation.attachedMethod ∧
    methodCalled.attributes.executable = true ∧
    (session.isAdmin = false → w.getUserExecutableOnObject session.sessionId session.sessionHandle
      call.request.objectId call.request.methodId = true) ∧
    HasMethod call.server call.request.objectId methodCalled ∧
    (∃ declared, declaredArguments w call.server methodCalled inputArguments = some declared ∧
      List.Forall₂ (Argument.Accepts call.server) declared call.invocation.input) ∧
    ∃ declared, declaredArguments w call.server methodCalled outputArguments = some declared ∧
      call.invocation.output.length = declared.length

/-- What the service overlooks does not matter for the request: the property OutputArguments, if
there is one, holds an array of Arguments or no elements, and every argument is sized for its
declaration. -/
def Sound (w : CallWorld α) (sv : Server (CallAttributes α)) (request : CallMethodRequest α) :
    Prop :=
  ∀ methodCalled, sv.get request.methodId = some methodCalled →
    (∀ node, getArgumentsVariableNode sv methodCalled outputArguments = some node →
      ∃ v, node.attributes.value = .data v ∧ v.value.data.isScalar = false ∧
        (v.value.type = some w.argumentType ∨ v.value.data.items = [])) ∧
    ∀ declared, declaredArguments w sv methodCalled inputArguments = some declared →
      List.Forall₂ (fun arg value => Sized arg.valueRank arg.arrayDimensions value) declared
        request.inputArguments

variable {w : CallWorld α} {sv : Server (CallAttributes α)} {session : CallSession}
  {request : CallMethodRequest α} {methodCalled : Node (CallAttributes α)} {n n' : Nat}

theorem verifyMethod_ok {methodId : NodeKey} {attachedMethod : Nat}
    (h : verifyMethod sv methodId = .ok (methodCalled, attachedMethod)) :
    sv.get methodId = some methodCalled ∧ methodCalled.nodeClass = .method ∧
      methodCalled.attributes.attachedMethod = some attachedMethod := by
  unfold verifyMethod at h
  split at h
  · cases h
  · rename_i node hget
    split at h
    · cases h
    · rename_i hclass
      split at h
      · cases h
      · rename_i attached hattached
        cases h
        exact ⟨hget, not_not.mp hclass, hattached⟩

theorem verifyAccess_ok (h : verifyAccess w sv session request methodCalled = .ok ()) :
    (∃ withObject, sv.get request.objectId = some withObject ∧
      (withObject.nodeClass = .object ∨ withObject.nodeClass = .objectType)) ∧
    methodCalled.attributes.executable = true ∧
      (session.isAdmin = false → w.getUserExecutableOnObject session.sessionId
        session.sessionHandle request.objectId request.methodId = true) := by
  unfold verifyAccess at h
  split at h
  · cases h
  · rename_i withObject hget
    split at h
    · cases h
    · rename_i hclass
      split at h
      · cases h
      · rename_i hexecutable
        refine ⟨⟨withObject, hget, ?_⟩, ?_⟩
        · rwa [not_and_or, not_not, not_not] at hclass
        · unfold isExecutable at hexecutable
          cases hadmin : session.isAdmin with
          | true | false => simpa [hadmin] using hexecutable

theorem findMethodReference_found {objectId : NodeKey} {refs : List ReferenceNode}
    (h : (findMethodReference w sv objectId refs).run n = .ok (true, n')) :
    ∃ ref ∈ refs, ref.isInverse = true ∧ ref.targetId.nodeId = objectId ∧
      ReflTransGen (HasSupertype (variablesOf sv)) ref.referenceTypeId hasComponent := by
  induction refs generalizing n with
  | nil => cases (run_pure_ok.mp h).1
  | cons ref refs ih =>
    have hrest : (findMethodReference w sv objectId refs).run n = .ok (true, n') →
        ∃ ref' ∈ ref :: refs, ref'.isInverse = true ∧ ref'.targetId.nodeId = objectId ∧
          ReflTransGen (HasSupertype (variablesOf sv)) ref'.referenceTypeId hasComponent := by
      intro hfound
      obtain ⟨ref', hmem, hprops⟩ := ih hfound
      exact ⟨ref', List.mem_cons_of_mem _ hmem, hprops⟩
    obtain ⟨⟨hinverse, htarget⟩, h⟩ | ⟨-, h⟩ := run_ite_cases h
    · split at h
      · exact (run_throw_ok.mp h).elim
      · rename_i hfound
        rw [← isNodeInTree_mapAttributes] at hfound
        exact ⟨ref, List.mem_cons_self, hinverse, htarget, isNodeInTree_sound _ hfound⟩
      · exact hrest h
    · exact hrest h

theorem checkArguments_good {reqs : List Argument} {args args' : List (UaVariant α)}
    {retval : StatusCode} (hreceived : ∀ value ∈ args, Received w.toOutside value)
    (hlength : reqs.length = args.length)
    (h : (checkArguments w sv reqs args retval).run n = .ok ((StatusCode.good, args'), n')) :
    retval = StatusCode.good ∧ List.Forall₂ (Converted w.toOutside) args args' ∧
      (List.Forall₂ (Argument.Accepts sv) reqs args' ↔
        List.Forall₂ (fun arg value => Sized arg.valueRank arg.arrayDimensions value) reqs
          args) := by
  induction reqs generalizing args args' retval n n' with
  | nil =>
    obtain rfl := List.length_eq_zero_iff.mp hlength.symm
    obtain ⟨hresult, -⟩ := run_pure_ok.mp h
    obtain ⟨hgood, rfl⟩ := Prod.mk.inj hresult
    exact ⟨hgood.symm, .nil, iff_of_true .nil .nil⟩
  | cons req reqs ih =>
    obtain ⟨arg, args, rfl⟩ := List.exists_cons_of_length_eq_add_one hlength.symm
    obtain ⟨⟨status, arg'⟩, n1, hcheck, h⟩ := run_bind_ok.mp h
    obtain ⟨⟨retval', rest⟩, n2, hrest, h⟩ := run_bind_ok.mp h
    obtain ⟨hresult, -⟩ := run_pure_ok.mp h
    obtain ⟨rfl, rfl⟩ := Prod.mk.inj hresult
    obtain ⟨hor, hconv, hiff⟩ := ih
      (fun value hmem => hreceived value (List.mem_cons_of_mem _ hmem)) (Nat.succ.inj hlength) hrest
    obtain ⟨hgood, hstatus⟩ := UInt32.or_eq_zero_iff.mp hor
    obtain rfl : status = StatusCode.good := hstatus
    have hsized := conforms_iff_sized (hreceived arg List.mem_cons_self) hcheck
    refine ⟨hgood, .cons (converted_of_good hcheck) hconv, ?_⟩
    rw [List.forall₂_cons, List.forall₂_cons, hiff]
    exact and_congr_left' hsized

theorem getArguments_declared {name : List UInt8}
    (h : getArgumentsVariableNode sv methodCalled name = none) :
    declaredArguments w sv methodCalled name = some [] := by
  rw [declaredArguments, h]

theorem checkInput_good {input : List (UaVariant α)}
    (hreceived : ∀ value ∈ request.inputArguments, Received w.toOutside value)
    (h : (checkInput w sv methodCalled request.inputArguments).run n =
      .ok ((StatusCode.good, input), n')) :
    ∃ declared, declaredArguments w sv methodCalled inputArguments = some declared ∧
      List.Forall₂ (Converted w.toOutside) request.inputArguments input ∧
      (List.Forall₂ (Argument.Accepts sv) declared input ↔
        List.Forall₂ (fun arg value => Sized arg.valueRank arg.arrayDimensions value) declared
          request.inputArguments) := by
  have hbad : ∀ {status : StatusCode} {args : List (UaVariant α)} {P : Prop},
      status ≠ StatusCode.good →
      (pure (status, args) : RangeM (StatusCode × List (UaVariant α))).run n =
        .ok ((StatusCode.good, input), n') → P := by
    intro status args P hne hrun
    exact absurd (Prod.mk.inj (run_pure_ok.mp hrun).1).1.symm hne
  unfold checkInput at h
  split at h
  · rename_i hnone
    obtain ⟨hstatus, rfl⟩ := Prod.mk.inj (run_pure_ok.mp h).1
    have hnil : request.inputArguments = [] := by
      by_contra hne
      rw [if_pos (List.length_pos_iff.mpr hne)] at hstatus
      exact absurd hstatus (by decide)
    rw [hnil]
    exact ⟨[], getArguments_declared hnone, .nil, iff_of_true .nil .nil⟩
  · rename_i node hnode
    unfold argumentsConformsToDefinition at h
    split at h
    · exact hbad (by decide) h
    · rename_i v hv
      obtain ⟨-, h⟩ | ⟨htype, h⟩ := run_ite_cases h
      · exact hbad (by decide) h
      obtain ⟨-, h⟩ | ⟨-, h⟩ := run_ite_cases h
      · exact hbad (by decide) h
      obtain ⟨-, h⟩ | ⟨hlength, h⟩ := run_ite_cases h
      · exact hbad (by decide) h
      obtain ⟨-, hconv, hiff⟩ := checkArguments_good hreceived (not_not.mp hlength) h
      refine ⟨_, ?_, hconv, hiff⟩
      rw [declaredArguments, hnode]
      dsimp only
      rw [hv]
      dsimp only
      rw [if_pos (.inl (not_not.mp htype))]

theorem length_newVariants {size : Nat} {output : List (UaVariant α)}
    (h : (newVariants w size).run n = .ok (some output, n')) : output.length = size := by
  obtain ⟨-, h⟩ | ⟨-, h⟩ := run_ite_cases h
  · cases (run_pure_ok.mp h).1
  obtain ⟨hzero, h⟩ | ⟨-, h⟩ := run_ite_cases h
  · rw [Option.some.inj (run_pure_ok.mp h).1, hzero]
    rfl
  obtain ⟨granted, n1, -, h⟩ := run_bind_ok.mp h
  obtain ⟨-, h⟩ | ⟨-, h⟩ := run_ite_cases h
  · rw [Option.some.inj (run_pure_ok.mp h).1]
    exact List.length_replicate
  · cases (run_pure_ok.mp h).1

theorem outputArgumentsSize_iff :
    (∃ declared, declaredArguments w sv methodCalled outputArguments = some declared ∧
        outputArgumentsSize w sv methodCalled = declared.length) ↔
      ∀ node, getArgumentsVariableNode sv methodCalled outputArguments = some node →
        ∃ v, node.attributes.value = .data v ∧ v.value.data.isScalar = false ∧
          (v.value.type = some w.argumentType ∨ v.value.data.items = []) := by
  rw [declaredArguments, outputArgumentsSize]
  generalize getArgumentsVariableNode sv methodCalled outputArguments = found
  cases found with
  | none =>
    refine iff_of_true ⟨[], rfl, rfl⟩ fun node hnode => ?_
    cases hnode
  | some node =>
    dsimp only
    cases hvalue : node.attributes.value with
    | dataSource =>
      refine iff_of_false (fun ⟨_, hnone, _⟩ => nomatch hnone) fun h => ?_
      obtain ⟨v, hv, -⟩ := h node rfl
      rw [hvalue] at hv
      cases hv
    | data v =>
      dsimp only
      constructor
      · rintro ⟨declared, hdeclared, hsize⟩ node' hnode'
        obtain rfl := Option.some.inj hnode'
        refine ⟨v, hvalue, ?_⟩
        split at hdeclared
        · rename_i hallowed
          obtain rfl := Option.some.inj hdeclared
          refine ⟨?_, hallowed⟩
          cases hdata : v.value.data with
          | scalar x =>
            rw [hdata] at hsize
            cases hsize
          | null | sentinel => rfl
          | array items hne => rfl
        · cases hdeclared
      · intro h
        obtain ⟨v', hv', hscalar, hallowed⟩ := h node rfl
        obtain rfl := ValueSource.data.inj (hvalue.symm.trans hv')
        rw [if_pos hallowed]
        refine ⟨_, rfl, ?_⟩
        rw [List.length_map]
        cases hdata : v.value.data with
        | scalar x =>
          rw [hdata] at hscalar
          cases hscalar
        | null | sentinel => rfl
        | array items hne => rfl

theorem guarded_iff_sound {invocation : Invocation α}
    (hreceived : ∀ value ∈ request.inputArguments, Received w.toOutside value)
    (h : (prepareCall w sv session request).run n = .ok (.ok invocation, n')) :
    Guarded w session ⟨sv, request, invocation⟩ ↔ Sound w sv request := by
  unfold prepareCall at h
  split at h
  · cases (run_pure_ok.mp h).1
  rename_i methodCalled attachedMethod hmethod
  obtain ⟨hget, hclass, hattached⟩ := verifyMethod_ok hmethod
  split at h
  · cases (run_pure_ok.mp h).1
  rename_i haccess
  obtain ⟨hobject, hexecutable, huser⟩ := verifyAccess_ok haccess
  obtain ⟨found, n1, hfound, h⟩ := run_bind_ok.mp h
  obtain heq | ⟨htrue, h⟩ := run_return_or h
  · cases heq
  rw [Bool.not_eq_false] at htrue
  subst htrue
  have hlinked := findMethodReference_found hfound
  obtain ⟨⟨statusCode, input⟩, n2, hinput, h⟩ := run_bind_ok.mp h
  obtain heq | ⟨hgood, h⟩ := run_return_or h
  · cases heq
  obtain rfl : statusCode = StatusCode.good := not_not.mp hgood
  obtain ⟨declared, hdeclared, hsent, hiff⟩ := checkInput_good hreceived hinput
  obtain ⟨output, n3, houtput, h⟩ := run_bind_ok.mp h
  cases output with
  | none => cases (run_pure_ok.mp h).1
  | some output =>
    obtain rfl := Except.ok.inj (run_pure_ok.mp h).1
    have hlength := length_newVariants houtput
    constructor
    · intro hguarded m hm
      obtain rfl := Option.some.inj (hget.symm.trans hm)
      obtain ⟨m, hm, -, -, -, -, -, ⟨declared', hdeclared', hinput'⟩, hout⟩ := hguarded.isMethod
      obtain rfl := Option.some.inj (hget.symm.trans hm)
      obtain rfl := Option.some.inj (hdeclared.symm.trans hdeclared')
      refine ⟨outputArgumentsSize_iff.mp ?_, fun declared' hdeclared' => ?_⟩
      · rw [← hlength]
        exact hout
      · obtain rfl := Option.some.inj (hdeclared.symm.trans hdeclared')
        exact hiff.mp hinput'
    · intro hsound
      obtain ⟨hout, hsized⟩ := hsound methodCalled hget
      have hsize := outputArgumentsSize_iff.mpr hout
      rw [← hlength] at hsize
      exact
        { isObject := hobject
          sent := hsent
          isMethod := ⟨methodCalled, hget, hclass, hattached, hexecutable, huser, hlinked,
            ⟨declared, hdeclared, hiff.mpr (hsized declared hdeclared)⟩, hsize⟩ }

theorem callEach_performed {requests : List (CallMethodRequest α)} {sv' : Server (CallAttributes α)}
    {results : List (CallMethodResult α)} {performed : List (Performed α)}
    (h : (callEach w session sv requests).run n = .ok ((sv', results, performed), n'))
    {call : Performed α} (hcall : call ∈ performed) :
    call.request ∈ requests ∧ ∃ n n', (prepareCall w call.server session call.request).run n =
      .ok (.ok call.invocation, n') := by
  induction requests generalizing sv n n' sv' results performed with
  | nil =>
    obtain ⟨hresult, -⟩ := run_pure_ok.mp h
    cases hresult
    cases hcall
  | cons request requests ih =>
    obtain ⟨⟨sv₁, result, first⟩, n1, hsingle, h⟩ := run_bind_ok.mp h
    obtain ⟨⟨sv₂, results', rest⟩, n2, hrest, h⟩ := run_bind_ok.mp h
    obtain ⟨hresult, -⟩ := run_pure_ok.mp h
    cases hresult
    obtain hfirst | hrest' := List.mem_append.mp hcall
    · obtain ⟨prepared, n3, hprepare, hsingle⟩ := run_bind_ok.mp hsingle
      cases prepared with
      | error statusCode =>
        cases (run_pure_ok.mp hsingle).1
        cases hfirst
      | ok invocation =>
        cases (run_pure_ok.mp hsingle).1
        obtain rfl := List.mem_singleton.mp hfirst
        exact ⟨List.mem_cons_self, n, n3, hprepare⟩
    · obtain ⟨hmem, hprepared⟩ := ih hrest hrest'
      exact ⟨List.mem_cons_of_mem _ hmem, hprepared⟩

/-- Every method that a CallRequest runs is guarded exactly if what the service overlooks does not
matter for it. -/
theorem serviceCall_guarded_iff (w : CallWorld α) (session : CallSession)
    (sv : Server (CallAttributes α)) {methodsToCall : List (CallMethodRequest α)} {alloc : Bool}
    {called : Called α} {n n' : Nat}
    (hreceived : ∀ request ∈ methodsToCall, ∀ value ∈ request.inputArguments,
      Received w.toOutside value)
    (h : (serviceCall w sv session methodsToCall alloc).run n = .ok (called, n')) :
    ∀ call ∈ called.performed, Guarded w session call ↔ Sound w call.server call.request := by
  intro call hcall
  unfold serviceCall at h
  obtain heq | ⟨-, h⟩ := run_return_or h
  · rw [heq] at hcall
    cases hcall
  obtain heq | ⟨-, h⟩ := run_return_or h
  · rw [heq] at hcall
    cases hcall
  obtain ⟨⟨sv', results, performed⟩, n1, heach, h⟩ := run_bind_ok.mp h
  obtain rfl := (run_pure_ok.mp h).1
  obtain ⟨hmem, _, _, hprepared⟩ := callEach_performed heach hcall
  exact guarded_iff_sound (hreceived call.request hmem) hprepared

/-- `UA_TYPES[UA_TYPES_ARGUMENT]`. -/
def argumentDescription : TypeDescription where
  typeId := ⟨0, .numeric 296⟩
  memSize := 96
  pointerFree := false
  members := [⟨Builtin.string.ctorIdx, true, false⟩, ⟨Builtin.nodeId.ctorIdx, true, false⟩,
    ⟨Builtin.int32.ctorIdx, true, false⟩, ⟨Builtin.uint32.ctorIdx, true, true⟩,
    ⟨Builtin.localizedText.ctorIdx, true, false⟩]

/-- Every Argument is that of a number, and the method leaves its output as it is. -/
def numberCalls : CallWorld Nat where
  toOutside := quietOutside
  argumentType := argumentDescription
  argument _ := ⟨typeKey (builtinType .uint32), -1, []⟩
  getUserExecutableOnObject _ _ _ _ := true
  method sv invocation := (sv, StatusCode.good, invocation.output)
  strayArrayLength _ := 0

/-- A node with a value, and with a function if it is a method. -/
def callNode (id : UInt32) (nodeClass : NodeClass) (browseName : List UInt8)
    (value : UaVariant Nat) (attachedMethod : Option Nat) (references : List ReferenceNode) :
    Node (CallAttributes Nat) where
  nodeId := ⟨1, .numeric id⟩
  nodeClass := nodeClass
  browseName := ⟨0, browseName⟩
  displayName := ⟨[], []⟩
  isAbstract := false
  attributes :=
    { dataType := ns0 296, valueRank := 1, arrayDimensions := [], value := .data (bareValue value),
      description := ⟨[], []⟩, writeMask := 0, accessLevel := 1, minimumSamplingInterval := 0,
      historizing := false, symmetric := false, inverseName := ⟨[], []⟩, containsNoLoops := false,
      eventNotifier := 0, executable := true, methodHandle := 7, attachedMethod := attachedMethod }
  references := references

/-- Arguments as the value of a property. -/
def argumentsValue (data : VariantData Nat) : UaVariant Nat :=
  ⟨some argumentDescription, data, .null⟩

/-- An object with a method, and the value of its property OutputArguments. -/
def methodServer (output : VariantData Nat) : Server (CallAttributes Nat) where
  nodes :=
    [callNode 1 .object [] emptyVariant none [⟨hasComponent, false, .here ⟨1, .numeric 2⟩⟩],
      callNode 2 .method [] emptyVariant (some 0)
        [⟨hasComponent, true, .here ⟨1, .numeric 1⟩⟩, ⟨hasProperty, false, .here ⟨1, .numeric 3⟩⟩,
          ⟨hasProperty, false, .here ⟨1, .numeric 4⟩⟩],
      callNode 3 .variable inputArguments (argumentsValue (.array [0] (by decide))) none [],
      callNode 4 .variable outputArguments (argumentsValue output) none []]
  namespacesSize := 2
  clock := 0

def plainSession : CallSession := ⟨false, ⟨0, .numeric 5⟩, 0⟩

def callNumber : CallMethodRequest Nat :=
  ⟨⟨1, .numeric 1⟩, ⟨1, .numeric 2⟩, [⟨some (builtinType .uint32), .scalar 9, .null⟩]⟩

/-- The method as it is run with some output arguments. -/
def ranWith (output : List (UaVariant Nat)) : Invocation Nat :=
  ⟨0, 7, ⟨1, .numeric 1⟩, ⟨0, .numeric 5⟩, 0, callNumber.inputArguments, output⟩

/-- One output argument is declared by an array of one. -/
theorem serviceCall_guarded_array :
    ∃ called n', (serviceCall numberCalls (methodServer (.array [0] (by decide))) plainSession
        [callNumber] true).run 0 = .ok (called, n') ∧
      ∃ call ∈ called.performed, Guarded numberCalls plainSession call := by
  have hrun : (serviceCall numberCalls (methodServer (.array [0] (by decide))) plainSession
      [callNumber] true).run 0 =
      .ok (⟨methodServer (.array [0] (by decide)), StatusCode.good,
        [⟨StatusCode.good, [emptyVariant]⟩],
        [⟨methodServer (.array [0] (by decide)), callNumber, ranWith [emptyVariant]⟩]⟩, 1) := by
    rfl
  refine ⟨_, _, hrun, _, List.mem_singleton_self _, ?_⟩
  refine (serviceCall_guarded_iff numberCalls plainSession _ ?_ hrun _
    (List.mem_singleton_self _)).mpr ?_
  · intro request hrequest value hvalue
    obtain rfl := List.mem_singleton.mp hrequest
    obtain rfl := List.mem_singleton.mp hvalue
    exact ⟨fun _ => rfl, nofun, by decide, fun _ _ => Nat.two_pow_pos 32⟩
  · intro methodCalled hget
    obtain rfl := Option.some.inj hget
    refine ⟨fun node hnode => ?_, fun declared hdeclared => ?_⟩
    · obtain rfl := Option.some.inj hnode
      exact ⟨_, rfl, rfl, .inl rfl⟩
    · obtain rfl := Option.some.inj hdeclared
      exact .cons ⟨fun hne => absurd rfl hne, fun _ _ h => absurd h (by decide), nofun⟩ .nil

/-- A single Argument is the same declaration, but the method gets no output arguments. -/
theorem singleArgument_unguarded :
    ∃ called n', (serviceCall numberCalls (methodServer (.scalar 0)) plainSession [callNumber]
        true).run 0 = .ok (called, n') ∧
      ∃ call ∈ called.performed, ¬ Guarded numberCalls plainSession call := by
  have hrun : (serviceCall numberCalls (methodServer (.scalar 0)) plainSession [callNumber]
      true).run 0 = .ok (⟨methodServer (.scalar 0), StatusCode.good, [⟨StatusCode.good, []⟩],
        [⟨methodServer (.scalar 0), callNumber, ranWith []⟩]⟩, 0) := by
    rfl
  refine ⟨_, _, hrun, _, List.mem_singleton_self _, fun hguarded => ?_⟩
  obtain ⟨methodCalled, hget, -, -, -, -, -, -, declared, hdeclared, hlength⟩ := hguarded.isMethod
  obtain rfl := Option.some.inj hget
  obtain rfl := Option.some.inj hdeclared
  exact absurd hlength (by decide)

end FactoryThing.Methods