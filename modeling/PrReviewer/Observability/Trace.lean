import Mathlib.Data.Finset.Basic
import Mathlib.Tactic
import PrReviewer.Lib.Sorting
import PrReviewer.Observability.Redaction

/-!
# The reconstruction of a trace

observability/trace.py: the events of the hosted and of the local store become two chains of
segments, and the acknowledgements of the hosted chain are placed behind the local one.  The
type of the hosted timestamps and their `isoformat` are parameters.
-/

namespace PrReviewer
namespace Observability

open Lib

inductive TraceOrigin where
  | hostedOrigin
  | localOrigin
deriving DecidableEq, Repr

def TraceOrigin.value : TraceOrigin → String
  | .hostedOrigin => "hosted"
  | .localOrigin => "local"

inductive TracePlacement where
  | proven
  | unordered
deriving DecidableEq, Repr

/-- `HostedTraceEvent` and `LocalTraceEvent`, whose timestamps are of different types. -/
structure TraceEvent (τ : Type) where
  sequence : Int
  kind : PyStr
  payload : List (PyStr × PyJson)
  createdAt : τ

/-- `HostedTrace` and `LocalTrace`. -/
structure StoreTrace (τ : Type) where
  traceId : PyStr
  events : List (TraceEvent τ)

structure TraceSegment where
  origin : TraceOrigin
  traceId : PyStr
  spanId : PyStr
  parentSpanId : Option PyStr
  timestamp : PyStr
  kind : PyStr
  payload : List (PyStr × PyJson)
  placement : TracePlacement

structure TraceReconstruction where
  jobId : PyStr
  traceId : Option PyStr
  segments : List TraceSegment
  missingOrigins : Finset TraceOrigin

/-- TraceIntegrityError, with the texts its message shows, or another exception. -/
inductive TraceError where
  | integrity (jobId hostedTraceId localTraceId : PyStr)
  | python (e : PyException)

/-- `kind in _HOSTED_POST_LOCAL_KINDS`. -/
def isPostLocal (kind : PyStr) : Bool :=
  decide (kind = .ofString "review_job_acknowledged")

section Chains

variable {τ : Type}
variable (lower : PyStr → PyStr)
variable (level : RedactionLevel)
variable (origin : TraceOrigin)
variable (traceId : PyStr)
variable (timestamp : τ → PyStr)
variable (placement : PyStr → TracePlacement)

/-- The loop of `_build_hosted_chain` and `_build_local_chain`. -/
def chainFrom (previousSpanId : Option PyStr) :
    List (TraceEvent τ) → Except PyException (List TraceSegment)
  | [] => .ok []
  | event :: rest => do
      let digits ← intText event.sequence
      let spanId := .ofString (origin.value ++ ":") ++ digits
      let segments ← chainFrom (some spanId) rest
      return {
        origin := origin
        traceId := traceId
        spanId := spanId
        parentSpanId := previousSpanId
        timestamp := timestamp event.createdAt
        kind := event.kind
        payload := redactPayload lower level event.payload
        placement := placement event.kind } :: segments

end Chains

section Reconstruction

variable {δ : Type}
variable (lower : PyStr → PyStr)
variable (isoformat : δ → PyStr)
variable (level : RedactionLevel)

/-- The placement of a hosted segment. -/
def hostedPlacement (kind : PyStr) : TracePlacement :=
  if isPostLocal kind = true then .proven else .unordered

/-- `_build_hosted_chain`. -/
def buildHostedChain (traceId : PyStr) (events : List (TraceEvent δ)) :
    Except PyException (List TraceSegment) :=
  chainFrom lower level .hostedOrigin traceId isoformat hostedPlacement none
    (sortOn TraceEvent.sequence events)

/-- `_build_local_chain`. -/
def buildLocalChain (traceId : PyStr) (events : List (TraceEvent PyStr)) :
    Except PyException (List TraceSegment) :=
  chainFrom lower level .localOrigin traceId id (fun _ => .proven) none
    (sortOn TraceEvent.sequence events)

/-- The first acknowledgement is made a child of the last local segment. -/
def linkAcknowledged : List TraceSegment → Option TraceSegment → List TraceSegment
  | first :: rest, some last => { first with parentSpanId := some last.spanId } :: rest
  | postLocal, _ => postLocal

/-- The segments of the two chains in one list. -/
def mergeChains (hostedSegments localSegments : List TraceSegment) : List TraceSegment :=
  let preLocal := hostedSegments.filter (fun segment => !isPostLocal segment.kind)
  let postLocal := hostedSegments.filter (fun segment => isPostLocal segment.kind)
  preLocal ++ localSegments ++ linkAcknowledged postLocal localSegments.getLast?

/-- The events of a store, where it has a record of the job. -/
def eventsOf {τ : Type} (store : Option (StoreTrace τ)) : List (TraceEvent τ) :=
  (store.map StoreTrace.events).getD []

def missingOrigins (hosted : Option (StoreTrace δ)) (localTrace : Option (StoreTrace PyStr)) :
    Finset TraceOrigin :=
  (if hosted.isNone = true then {.hostedOrigin} else ∅) ∪
    (if localTrace.isNone = true then {.localOrigin} else ∅)

/-- The part of `reconstruct_trace` behind the comparison of the trace ids. -/
def assembleTrace (jobId : PyStr) (hosted : Option (StoreTrace δ))
    (localTrace : Option (StoreTrace PyStr)) : Except PyException TraceReconstruction := do
  let traceId := (hosted.map StoreTrace.traceId).or (localTrace.map StoreTrace.traceId)
  let hostedSegments ← buildHostedChain lower isoformat level (traceId.getD ⟨[]⟩) (eventsOf hosted)
  let localSegments ← buildLocalChain lower level (traceId.getD ⟨[]⟩) (eventsOf localTrace)
  return {
    jobId := jobId
    traceId := traceId
    segments := mergeChains hostedSegments localSegments
    missingOrigins := missingOrigins hosted localTrace }

/-- `reconstruct_trace`. -/
def reconstructTrace (jobId : PyStr) (hosted : Option (StoreTrace δ))
    (localTrace : Option (StoreTrace PyStr)) : Except TraceError TraceReconstruction :=
  match hosted, localTrace with
  | some hostedStore, some localStore =>
      if hostedStore.traceId ≠ localStore.traceId then
        .error (.integrity jobId hostedStore.traceId localStore.traceId)
      else
        (assembleTrace lower isoformat level jobId hosted localTrace).mapError .python
  | _, _ => (assembleTrace lower isoformat level jobId hosted localTrace).mapError .python

end Reconstruction

end Observability
end PrReviewer
