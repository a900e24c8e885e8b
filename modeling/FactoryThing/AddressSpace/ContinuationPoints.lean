import FactoryThing.AddressSpace.Browse

/-!
# Continuation points

Browse and BrowseNext for one description (`src/server/ua_services_view.c:133-139, 221-327,
390-411`). What has not been delivered can be asked for by a continuation point of the session,
which keeps the description and the number of references that have been delivered.
-/

namespace FactoryThing.AddressSpace

variable {A : Type}

/-- `struct ContinuationPointEntry` (`src/ua_session.h:19-25`). -/
structure ContinuationPointEntry where
  identifier : Guid
  browseDescription : BrowseDescription
  continuationIndex : UInt32
  maxReferences : UInt32
  deriving DecidableEq

/-- The continuation points of a session. -/
structure Session where
  availableContinuationPoints : UInt16
  continuationPoints : List ContinuationPointEntry
  deriving DecidableEq

/-- `UA_Session_init` (`src/ua_session.c:48`). -/
def Session.init : Session := ⟨5, []⟩

/-- A `UA_BrowseResult` with the continuation point that may come with it. -/
structure BrowseReply where
  statusCode : StatusCode
  references : List ReferenceDescription
  continuationPoint : Option Guid
  deriving DecidableEq

/-- Which allocations succeed: the results, and a new continuation point. -/
structure BrowseAllocs where
  results : Bool
  entry : Bool
  deriving DecidableEq

variable (sv : Server A) (session : Session)

/-- `removeCp` (`:133-139`). -/
def removeCp (cp : ContinuationPointEntry) : Session where
  availableContinuationPoints := session.availableContinuationPoints + 1
  continuationPoints :=
    Keyed.remove ContinuationPointEntry.identifier session.continuationPoints cp.identifier

/-- `Service_Browse_single` (`:221-327`). A new continuation point gets the random identifier
`ident`. -/
def serviceBrowseSingle (cp : Option ContinuationPointEntry) (descr : BrowseDescription)
    (maxrefs : UInt32) (alloc : BrowseAllocs) (ident : Guid) : Session × BrowseReply :=
  let internalCp := cp.getD ⟨ident, descr, 0, maxrefs⟩
  let browsed := browse sv internalCp.browseDescription internalCp.maxReferences
    internalCp.continuationIndex alloc.results
  let result := browsed.1
  let done := browsed.2
  if result.statusCode ≠ StatusCode.good then (session, ⟨result.statusCode, [], none⟩)
  else
    let internalCp :=
      { internalCp with
        continuationIndex :=
          internalCp.continuationIndex + UInt32.ofNat result.references.length }
    match cp with
    | some cp =>
        if done then (removeCp session cp, ⟨StatusCode.good, result.references, none⟩)
        else
          ({ session with
              continuationPoints :=
                Keyed.modify ContinuationPointEntry.identifier (fun _ => internalCp) cp.identifier
                  session.continuationPoints },
            ⟨StatusCode.good, result.references, some cp.identifier⟩)
    | none =>
        if done then (session, ⟨StatusCode.good, result.references, none⟩)
        else if session.availableContinuationPoints ≤ 0 ∨ ¬ alloc.entry then
          (session, ⟨StatusCode.badNoContinuationPoints, result.references, none⟩)
        else
          (⟨session.availableContinuationPoints - 1, internalCp :: session.continuationPoints⟩,
            ⟨StatusCode.good, result.references, some ident⟩)

/-- `UA_Server_browseNext_single` (`:390-411`). -/
def browseNextSingle (releaseContinuationPoint : Bool) (continuationPoint : Guid)
    (alloc : BrowseAllocs) : Session × BrowseReply :=
  match Keyed.find ContinuationPointEntry.identifier session.continuationPoints
    continuationPoint with
  | none => (session, ⟨StatusCode.badContinuationPointInvalid, [], none⟩)
  | some cp =>
      if releaseContinuationPoint then (removeCp session cp, ⟨StatusCode.good, [], none⟩)
      else serviceBrowseSingle sv session (some cp) cp.browseDescription 0 alloc continuationPoint

/-- BrowseNext until no continuation point is returned: the pages, and the session they leave. -/
def nextPages : Nat → Session → Option Guid → Option (List (List ReferenceDescription) × Session)
  | _, session, none => some ([], session)
  | 0, _, some _ => none
  | fuel + 1, session, some continuationPoint =>
      let (session, reply) := browseNextSingle sv session false continuationPoint ⟨true, true⟩
      (nextPages fuel session reply.continuationPoint).map fun (pages, session) =>
        (reply.references :: pages, session)

/-- Browse, and then BrowseNext until no continuation point is returned. -/
def browsePages (fuel : Nat) (descr : BrowseDescription) (maxrefs : UInt32) (ident : Guid) :
    Option (List (List ReferenceDescription) × Session) :=
  let (session, reply) := serviceBrowseSingle sv session none descr maxrefs ⟨true, true⟩ ident
  (nextPages sv fuel session reply.continuationPoint).map fun (pages, session) =>
    (reply.references :: pages, session)

end FactoryThing.AddressSpace
