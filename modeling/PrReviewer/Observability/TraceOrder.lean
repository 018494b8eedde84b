import Mathlib.Data.List.Nodup
import Mathlib.Tactic
import PrReviewer.Observability.Trace

/-!
# The order of a reconstructed trace

Every event is one segment, and a segment stands behind its parent, except where a hosted
event of another kind comes directly behind an acknowledgement: the acknowledgement is
placed behind the local chain, its child before it.  Neither the order of the events nor a
timestamp changes the order of the segments.
-/

namespace PrReviewer
namespace Observability

open Lib

section Chains

variable {τ : Type}
variable (lower : PyStr → PyStr)
variable (level : RedactionLevel)
variable (origin : TraceOrigin)
variable (traceId : PyStr)
variable (timestamp : τ → PyStr)
variable (placement : PyStr → TracePlacement)

/-- The span of an event whose sequence can be written out. -/
def spanOf (sequence : Int) : PyStr :=
  .ofString (origin.value ++ ":") ++ intDigits sequence

/-- The segment of an event. -/
def segmentOf (previousSpanId : Option PyStr) (event : TraceEvent τ) : TraceSegment where
  origin := origin
  traceId := traceId
  spanId := spanOf origin event.sequence
  parentSpanId := previousSpanId
  timestamp := timestamp event.createdAt
  kind := event.kind
  payload := redactPayload lower level event.payload
  placement := placement event.kind

/-- The chain of events whose sequences can be written out. -/
def chainOf (previousSpanId : Option PyStr) : List (TraceEvent τ) → List TraceSegment
  | [] => []
  | event :: rest =>
      segmentOf lower level origin traceId timestamp placement previousSpanId event ::
        chainOf (some (spanOf origin event.sequence)) rest

variable {lower level origin traceId timestamp placement}

theorem chainFrom_eq
    {previous : Option PyStr} {events : List (TraceEvent τ)}
    (hshort : ∀ event ∈ events, event.sequence.natAbs < 10 ^ maxStrDigits) :
    chainFrom lower level origin traceId timestamp placement previous events =
      .ok (chainOf lower level origin traceId timestamp placement previous events) := by
  induction events generalizing previous with
  | nil => rfl
  | cons event rest ih =>
      obtain ⟨hevent, hrest⟩ := List.forall_mem_cons.mp hshort
      rw [chainFrom, intText_eq_ok hevent, ok_bind]
      simp only [ih hrest]
      rfl

theorem chainOf_spans
    (previous : Option PyStr) (events : List (TraceEvent τ)) :
    (chainOf lower level origin traceId timestamp placement previous events).map
        TraceSegment.spanId =
      events.map (fun event => spanOf origin event.sequence) := by
  induction events generalizing previous with
  | nil => rfl
  | cons event rest ih => rw [chainOf, List.map_cons, List.map_cons, ih, segmentOf]

/-- The parent of a segment is the one before it in its chain. -/
theorem chainOf_parent
    {previous : Option PyStr} {events : List (TraceEvent τ)} {before after : List TraceSegment}
    {segment : TraceSegment}
    (h : chainOf lower level origin traceId timestamp placement previous events =
      before ++ segment :: after) :
    segment.parentSpanId = (before.getLast?.map TraceSegment.spanId).or previous := by
  induction before generalizing previous events with
  | nil =>
      cases events with
      | nil => cases h
      | cons event rest =>
          obtain ⟨rfl, _⟩ := List.cons.inj h
          rfl
  | cons first before ih =>
      cases events with
      | nil => cases h
      | cons event rest =>
          obtain ⟨rfl, hrest⟩ := List.cons.inj h
          rw [ih hrest]
          cases before with
          | nil => rfl
          | cons second before =>
              rw [List.getLast?_cons_cons, List.getLast?_eq_some_getLast (List.cons_ne_nil _ _)]
              rfl

theorem mem_chainOf
    {previous : Option PyStr} {events : List (TraceEvent τ)} {segment : TraceSegment}
    (h : segment ∈ chainOf lower level origin traceId timestamp placement previous events) :
    segment.origin = origin ∧ ∃ event ∈ events, segment.kind = event.kind ∧
      segment.spanId = spanOf origin event.sequence := by
  induction events generalizing previous with
  | nil => cases h
  | cons event rest ih =>
      rcases List.mem_cons.mp h with rfl | h
      · exact ⟨rfl, event, List.mem_cons_self .., rfl, rfl⟩
      · obtain ⟨horigin, other, hother, hsame⟩ := ih h
        exact ⟨horigin, other, List.mem_cons_of_mem event hother, hsame⟩

end Chains

section Spans

theorem spanOf_injective
    (origin : TraceOrigin) :
    Function.Injective (spanOf origin) := by
  intro n m h
  have hpoints := List.append_cancel_left (congrArg PyStr.points h)
  exact intDigits_injective (congrArg PyStr.mk hpoints)

theorem spanOf_ne
    (n m : Int) :
    spanOf .hostedOrigin n ≠ spanOf .localOrigin m := by
  intro h
  have hhosted : (spanOf .hostedOrigin n).points.head? = some (pointOf 'h') := rfl
  have hlocal : (spanOf .localOrigin m).points.head? = some (pointOf 'l') := rfl
  rw [h, hlocal] at hhosted
  revert hhosted
  decide

/-- The spans of the events of both stores are distinct. -/
theorem spans_nodup
    {τ υ : Type} {hosted : List (TraceEvent τ)} {localEvents : List (TraceEvent υ)}
    (hhosted : (hosted.map TraceEvent.sequence).Nodup)
    (hlocal : (localEvents.map TraceEvent.sequence).Nodup) :
    (hosted.map (fun event => spanOf .hostedOrigin event.sequence) ++
      localEvents.map (fun event => spanOf .localOrigin event.sequence)).Nodup := by
  have hmap : ∀ {υ : Type} (origin : TraceOrigin) (events : List (TraceEvent υ)),
      events.map (fun event => spanOf origin event.sequence) =
        (events.map TraceEvent.sequence).map (spanOf origin) := by
    intro υ origin events
    rw [List.map_map]
    rfl
  rw [hmap, hmap, List.nodup_append]
  refine ⟨hhosted.map (spanOf_injective _), hlocal.map (spanOf_injective _), ?_⟩
  intro span hspan other hother
  obtain ⟨n, _, rfl⟩ := List.mem_map.mp hspan
  obtain ⟨m, _, rfl⟩ := List.mem_map.mp hother
  exact spanOf_ne n m

end Spans

/-! ## The two chains in one list -/

section Merge

/-- Where an element of two lists stands. -/
theorem append_eq_split
    {α : Type} {xs ys before after : List α} {a : α}
    (h : xs ++ ys = before ++ a :: after) :
    (∃ rest, xs = before ++ a :: rest ∧ after = rest ++ ys) ∨
      ∃ rest, before = xs ++ rest ∧ ys = rest ++ a :: after := by
  rcases List.append_eq_append_iff.mp h with ⟨rest, hbefore, hys⟩ | ⟨rest, hxs, hrest⟩
  · exact .inr ⟨rest, hbefore, hys⟩
  · cases rest with
    | nil =>
        rw [List.append_nil] at hxs
        exact .inr ⟨[], by rw [hxs, List.append_nil], hrest.symm⟩
    | cons b rest =>
        obtain ⟨rfl, hafter⟩ := List.cons.inj hrest
        exact .inl ⟨rest, hxs, hafter⟩

/-- Where an element of a filtered list stands in the list. -/
theorem filter_eq_split
    {α : Type} {p : α → Bool} {items before after : List α} {a : α}
    (h : items.filter p = before ++ a :: after) :
    ∃ earlier later, items = earlier ++ a :: later ∧ earlier.filter p = before ∧
      later.filter p = after := by
  obtain ⟨first, second, rfl, hfirst, hsecond⟩ := List.filter_eq_append_iff.mp h
  obtain ⟨skipped, later, rfl, hskipped, _, hlater⟩ := List.filter_eq_cons_iff.mp hsecond
  refine ⟨first ++ skipped, later, by simp, ?_, hlater⟩
  rw [List.filter_append, hfirst, List.filter_eq_nil_iff.mpr hskipped, List.append_nil]

/-- The segment without its link. -/
def TraceSegment.unlinked (segment : TraceSegment) : TraceSegment :=
  { segment with parentSpanId := none }

/-- Every segment's parent is the segment before it. -/
def Linked (segments : List TraceSegment) : Prop :=
  ∀ before segment after, segments = before ++ segment :: after →
    segment.parentSpanId = before.getLast?.map TraceSegment.spanId

variable {hosted localSegments : List TraceSegment}

@[simp] theorem linkAcknowledged_nil
    (last : Option TraceSegment) :
    linkAcknowledged [] last = [] := by
  cases last <;> rfl

@[simp] theorem linkAcknowledged_none
    (segments : List TraceSegment) :
    linkAcknowledged segments none = segments := by
  cases segments <;> rfl

theorem linkAcknowledged_map
    {β : Type} {g : TraceSegment → β}
    (hlink : ∀ segment parent, g { segment with parentSpanId := parent } = g segment)
    (segments : List TraceSegment) (last : Option TraceSegment) :
    (linkAcknowledged segments last).map g = segments.map g := by
  cases segments with
  | nil => cases last <;> rfl
  | cons first rest =>
      cases last with
      | none => rfl
      | some last => rw [linkAcknowledged, List.map_cons, List.map_cons, hlink]

/-- The segments but for their links are those of the two chains. -/
theorem perm_mergeChains
    {β : Type} {g : TraceSegment → β}
    (hlink : ∀ segment parent, g { segment with parentSpanId := parent } = g segment)
    (hosted localSegments : List TraceSegment) :
    ((mergeChains hosted localSegments).map g).Perm (hosted.map g ++ localSegments.map g) := by
  have hdivided : (hosted.filter (fun segment => isPostLocal segment.kind) ++
      hosted.filter (fun segment => !isPostLocal segment.kind)).Perm hosted :=
    List.filter_append_perm _ hosted
  rw [mergeChains, List.map_append, List.map_append, linkAcknowledged_map hlink]
  refine List.Perm.trans ?_ ((hdivided.map g).append_right _)
  rw [List.map_append, List.append_assoc]
  refine List.perm_append_comm.trans ?_
  rw [List.append_assoc]
  exact List.perm_append_comm

/-- The acknowledgements in the list. -/
theorem exists_acknowledged
    (last : Option TraceSegment) {ack : TraceSegment}
    (hack : ack ∈ hosted) (hkind : isPostLocal ack.kind = true) :
    ∃ other ∈ linkAcknowledged (hosted.filter (fun segment => isPostLocal segment.kind)) last,
      other.spanId = ack.spanId ∧ other.kind = ack.kind ∧ other.origin = ack.origin := by
  have hmem : ack ∈ hosted.filter (fun segment => isPostLocal segment.kind) :=
    List.mem_filter.mpr ⟨hack, hkind⟩
  have hmap : ack.unlinked ∈ (linkAcknowledged
      (hosted.filter (fun segment => isPostLocal segment.kind)) last).map
        TraceSegment.unlinked := by
    rw [linkAcknowledged_map (fun _ _ => rfl)]
    exact List.mem_map_of_mem hmem
  obtain ⟨other, hother, heq⟩ := List.mem_map.mp hmap
  have hspan : other.unlinked.spanId = ack.unlinked.spanId := congrArg TraceSegment.spanId heq
  have hkinds : other.unlinked.kind = ack.unlinked.kind := congrArg TraceSegment.kind heq
  have horigin : other.unlinked.origin = ack.unlinked.origin := congrArg TraceSegment.origin heq
  exact ⟨other, hother, hspan, hkinds, horigin⟩

/-- A hosted segment that comes directly behind an acknowledgement. -/
def FollowsAcknowledged (hosted : List TraceSegment) (segment ack : TraceSegment) : Prop :=
  isPostLocal segment.kind = false ∧ isPostLocal ack.kind = true ∧
    ∃ before after, hosted = before ++ ack :: segment :: after

/-- The segment before one of another kind. -/
theorem parent_of_preLocal
    {before after : List TraceSegment} {segment : TraceSegment} {parent : PyStr}
    (hlinked : Linked hosted)
    (hsplit : hosted.filter (fun segment => !isPostLocal segment.kind) =
      before ++ segment :: after)
    (hparent : segment.parentSpanId = some parent) :
    parent ∈ before.map TraceSegment.spanId ∨
      ∃ ack, FollowsAcknowledged hosted segment ack ∧ ack.spanId = parent := by
  obtain ⟨earlier, later, hhosted, hbefore, _⟩ := filter_eq_split hsplit
  rw [hlinked earlier segment later hhosted, Option.map_eq_some_iff] at hparent
  obtain ⟨previous, hprevious, rfl⟩ := hparent
  have hkind : isPostLocal segment.kind = false := by
    have hmem : segment ∈ hosted.filter (fun segment => !isPostLocal segment.kind) := by
      simp [hsplit]
    simpa using (List.mem_filter.mp hmem).2
  cases hack : isPostLocal previous.kind with
  | false =>
      refine .inl (List.mem_map_of_mem (hbefore ▸ List.mem_filter.mpr ⟨?_, by simp [hack]⟩))
      exact List.mem_of_getLast? hprevious
  | true =>
      refine .inr ⟨previous, ⟨hkind, hack, earlier.dropLast, later, ?_⟩, rfl⟩
      have hearlier := List.dropLast_append_getLast? previous hprevious
      rw [hhosted, ← hearlier]
      simp

/-- The segment before an acknowledgement. -/
theorem parent_of_postLocal
    {before after : List TraceSegment} {segment : TraceSegment} {parent : PyStr}
    (hlinked : Linked hosted)
    (hsplit : hosted.filter (fun segment => isPostLocal segment.kind) =
      before ++ segment :: after)
    (hparent : segment.parentSpanId = some parent) :
    parent ∈ before.map TraceSegment.spanId ∨
      parent ∈ (hosted.filter (fun segment => !isPostLocal segment.kind)).map
        TraceSegment.spanId := by
  obtain ⟨earlier, later, hhosted, hbefore, _⟩ := filter_eq_split hsplit
  rw [hlinked earlier segment later hhosted, Option.map_eq_some_iff] at hparent
  obtain ⟨previous, hprevious, rfl⟩ := hparent
  have hmem := List.mem_of_getLast? hprevious
  cases hack : isPostLocal previous.kind with
  | true =>
      exact .inl (List.mem_map_of_mem (hbefore ▸ List.mem_filter.mpr ⟨hmem, hack⟩))
  | false =>
      refine .inr (List.mem_map_of_mem (List.mem_filter.mpr ⟨?_, by simp [hack]⟩))
      rw [hhosted]
      exact List.mem_append_left _ hmem

/-- A parent stands before its child, or is the acknowledgement that comes before it. -/
theorem parent_of_mergeChains
    {before after : List TraceSegment} {segment : TraceSegment} {parent : PyStr}
    (hhosted : Linked hosted) (hlocal : Linked localSegments)
    (hsplit : mergeChains hosted localSegments = before ++ segment :: after)
    (hparent : segment.parentSpanId = some parent) :
    parent ∈ before.map TraceSegment.spanId ∨
      ∃ ack, FollowsAcknowledged hosted segment ack ∧ ack.spanId = parent ∧
        ∃ other ∈ after, other.spanId = ack.spanId ∧ other.kind = ack.kind ∧
          other.origin = ack.origin := by
  rw [mergeChains] at hsplit
  rcases append_eq_split hsplit with ⟨rest, hfirst, rfl⟩ | ⟨rest, rfl, hpost⟩
  · rcases append_eq_split hfirst with ⟨rest', hpre, rfl⟩ | ⟨rest', rfl, hlocals⟩
    · rcases parent_of_preLocal hhosted hpre hparent with hmem | ⟨ack, hfollows, rfl⟩
      · exact .inl hmem
      · have hin : ack ∈ hosted := by
          obtain ⟨_, _, earlier, later, hsegments⟩ := hfollows
          simp [hsegments]
        obtain ⟨other, hother, hsame⟩ :=
          exists_acknowledged localSegments.getLast? hin hfollows.2.1
        exact .inr ⟨ack, hfollows, rfl, other, List.mem_append_right _ hother, hsame⟩
    · rw [hlocal rest' segment rest hlocals, Option.map_eq_some_iff] at hparent
      obtain ⟨previous, hprevious, rfl⟩ := hparent
      refine .inl (List.mem_map_of_mem (List.mem_append_right _ ?_))
      exact List.mem_of_getLast? hprevious
  · have hacknowledged : ∀ earlier, hosted.filter (fun segment => isPostLocal segment.kind) =
        earlier ++ segment :: after →
          earlier.map TraceSegment.spanId = rest.map TraceSegment.spanId →
            parent ∈ (hosted.filter (fun segment => !isPostLocal segment.kind) ++ localSegments ++
              rest).map TraceSegment.spanId := by
      intro earlier hpostLocal hspans
      simp only [List.map_append, List.mem_append]
      rcases parent_of_postLocal hhosted hpostLocal hparent with hmem | hmem
      · exact .inr (hspans ▸ hmem)
      · exact .inl (.inl hmem)
    refine .inl ?_
    cases hlast : localSegments.getLast? with
    | none =>
        rw [hlast, linkAcknowledged_none] at hpost
        exact hacknowledged rest hpost rfl
    | some last =>
        cases hkept : hosted.filter (fun segment => isPostLocal segment.kind) with
        | nil =>
            rw [hkept, linkAcknowledged_nil] at hpost
            exact absurd hpost.symm (by simp)
        | cons first others =>
            rw [hkept, hlast, linkAcknowledged] at hpost
            cases rest with
            | nil =>
                obtain ⟨rfl, _⟩ := List.cons.inj hpost
                obtain rfl := Option.some.inj hparent
                simp only [List.map_append, List.mem_append]
                exact .inl (.inr (List.mem_map_of_mem (List.mem_of_getLast? hlast)))
            | cons second rest =>
                obtain ⟨rfl, hothers⟩ := List.cons.inj hpost
                refine hacknowledged (first :: rest) ?_ rfl
                rw [hkept, hothers]
                rfl

end Merge

/-! ## The reconstruction -/

section Reconstruction

variable {δ : Type}
variable (lower : PyStr → PyStr)
variable (isoformat : δ → PyStr)
variable (level : RedactionLevel)

/-- The segments of a reconstruction whose sequences can be written out. -/
def segmentsOf (traceId : PyStr) (hosted : List (TraceEvent δ))
    (localEvents : List (TraceEvent PyStr)) : List TraceSegment :=
  mergeChains
    (chainOf lower level .hostedOrigin traceId isoformat hostedPlacement none
      (sortOn TraceEvent.sequence hosted))
    (chainOf lower level .localOrigin traceId id (fun _ => .proven) none
      (sortOn TraceEvent.sequence localEvents))

/-- `trace_id`, of whichever store has it. -/
def traceIdOf (hosted : Option (StoreTrace δ)) (localTrace : Option (StoreTrace PyStr)) :
    Option PyStr :=
  (hosted.map StoreTrace.traceId).or (localTrace.map StoreTrace.traceId)

variable {lower isoformat level}

theorem reconstructTrace_eq
    {jobId : PyStr} {hosted : Option (StoreTrace δ)} {localTrace : Option (StoreTrace PyStr)}
    (hids : ∀ hostedStore ∈ hosted, ∀ localStore ∈ localTrace,
      hostedStore.traceId = localStore.traceId)
    (hshort : ∀ event ∈ eventsOf hosted, event.sequence.natAbs < 10 ^ maxStrDigits)
    (hshort' : ∀ event ∈ eventsOf localTrace, event.sequence.natAbs < 10 ^ maxStrDigits) :
    reconstructTrace lower isoformat level jobId hosted localTrace = .ok {
      jobId := jobId
      traceId := traceIdOf hosted localTrace
      segments := segmentsOf lower isoformat level ((traceIdOf hosted localTrace).getD ⟨[]⟩)
        (eventsOf hosted) (eventsOf localTrace)
      missingOrigins := missingOrigins hosted localTrace } := by
  have hmem : ∀ {υ : Type} {events : List (TraceEvent υ)},
      (∀ event ∈ events, event.sequence.natAbs < 10 ^ maxStrDigits) →
        ∀ event ∈ sortOn TraceEvent.sequence events, event.sequence.natAbs < 10 ^ maxStrDigits :=
    fun h event hevent => h event ((perm_sortOn TraceEvent.sequence _).mem_iff.mp hevent)
  have hassemble : assembleTrace lower isoformat level jobId hosted localTrace = .ok {
      jobId := jobId
      traceId := traceIdOf hosted localTrace
      segments := segmentsOf lower isoformat level ((traceIdOf hosted localTrace).getD ⟨[]⟩)
        (eventsOf hosted) (eventsOf localTrace)
      missingOrigins := missingOrigins hosted localTrace } := by
    simp only [assembleTrace, buildHostedChain, buildLocalChain, chainFrom_eq (hmem hshort),
      chainFrom_eq (hmem hshort'), ok_bind]
    rfl
  unfold reconstructTrace
  split
  · next hostedStore localStore =>
      rw [if_neg (by simpa using hids hostedStore rfl localStore rfl), hassemble]
      rfl
  · rw [hassemble]
    rfl

end Reconstruction

end Observability
end PrReviewer
