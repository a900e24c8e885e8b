/-!
# Status codes

`UA_StatusCode` is an unsigned 32-bit integer; the code accumulates codes with `retval |= f()`
and compares whole codes with `==`. Only the codes the modelled functions use are named, with
the values of `include/ua_constants.h`.
-/

namespace FactoryThing

/-- `UA_StatusCode` (`include/ua_types.h`). -/
abbrev StatusCode := UInt32

namespace StatusCode

def good : StatusCode := 0x00
def goodNonCriticalTimeout : StatusCode := 0x00AA0000
def badUnexpectedError : StatusCode := 0x80010000
def badInternalError : StatusCode := 0x80020000
def badOutOfMemory : StatusCode := 0x80030000
def badResourceUnavailable : StatusCode := 0x80040000
def badCommunicationError : StatusCode := 0x80050000
def badEncodingError : StatusCode := 0x80060000
def badDecodingError : StatusCode := 0x80070000
def badEncodingLimitsExceeded : StatusCode := 0x80080000
def badServiceUnsupported : StatusCode := 0x800B0000
def badNothingToDo : StatusCode := 0x800F0000
def badUserAccessDenied : StatusCode := 0x801F0000
def badSecureChannelIdInvalid : StatusCode := 0x80220000
def badSessionIdInvalid : StatusCode := 0x80250000
def badSessionNotActivated : StatusCode := 0x80270000
def badSubscriptionIdInvalid : StatusCode := 0x80280000
def badTimestampsToReturnInvalid : StatusCode := 0x802B0000
def badWaitingForInitialData : StatusCode := 0x80320000
def badNodeIdInvalid : StatusCode := 0x80330000
def badNodeIdUnknown : StatusCode := 0x80340000
def badAttributeIdInvalid : StatusCode := 0x80350000
def badIndexRangeInvalid : StatusCode := 0x80360000
def badIndexRangeNoData : StatusCode := 0x80370000
def badDataEncodingInvalid : StatusCode := 0x80380000
def badDataEncodingUnsupported : StatusCode := 0x80390000
def badNotWritable : StatusCode := 0x803B0000
def badOutOfRange : StatusCode := 0x803C0000
def badNotSupported : StatusCode := 0x803D0000
def badNotFound : StatusCode := 0x803E0000
def badNotImplemented : StatusCode := 0x80400000
def badMonitoredItemIdInvalid : StatusCode := 0x80420000
def badContinuationPointInvalid : StatusCode := 0x804A0000
def badNoContinuationPoints : StatusCode := 0x804B0000
def badReferenceTypeIdInvalid : StatusCode := 0x804C0000
def badBrowseDirectionInvalid : StatusCode := 0x804D0000
def badServerNameMissing : StatusCode := 0x80500000
def badDiscoveryUrlMissing : StatusCode := 0x80510000
def badSempahoreFileMissing : StatusCode := 0x80520000
def badSecurityModeRejected : StatusCode := 0x80540000
def badTooManySessions : StatusCode := 0x80560000
def badParentNodeIdInvalid : StatusCode := 0x805B0000
def badReferenceNotAllowed : StatusCode := 0x805C0000
def badNodeIdExists : StatusCode := 0x805E0000
def badNodeClassInvalid : StatusCode := 0x805F0000
def badBrowseNameInvalid : StatusCode := 0x80600000
def badNodeAttributesInvalid : StatusCode := 0x80620000
def badTypeDefinitionInvalid : StatusCode := 0x80630000
def badNoMatch : StatusCode := 0x806F0000
def badMaxAgeInvalid : StatusCode := 0x80700000
def badWriteNotSupported : StatusCode := 0x80730000
def badTypeMismatch : StatusCode := 0x80740000
def badMethodInvalid : StatusCode := 0x80750000
def badArgumentsMissing : StatusCode := 0x80760000
def badNoSubscription : StatusCode := 0x80790000
def badSequenceNumberUnknown : StatusCode := 0x807A0000
def badMessageNotAvailable : StatusCode := 0x807B0000
def badTcpMessageTypeInvalid : StatusCode := 0x807E0000
def badTcpEndpointUrlInvalid : StatusCode := 0x80830000
def badInvalidArgument : StatusCode := 0x80AB0000
def badConnectionClosed : StatusCode := 0x80AE0000
def badRequestTooLarge : StatusCode := 0x80B80000
def badResponseTooLarge : StatusCode := 0x80B90000
def uncertainReferenceNotDeleted : StatusCode := 0x40BC0000

end StatusCode

/-- How a run of C code fails to produce a result: a loop that never ends, or an access or a `free`
the language gives no meaning to. -/
inductive Fault where
  | diverges
  | nullDeref
  | outOfBounds
  | doubleFree
  deriving DecidableEq

end FactoryThing
