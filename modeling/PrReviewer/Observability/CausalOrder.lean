import Mathlib.Tactic
import PrReviewer.Observability.TraceOrder

/-!
# What the order of a trace proves

A reconstructed trace has every event once, under a span of its own, and does not depend on
the order or on the timestamps of the events.  All parents stand before their children
exactly where no other hosted event comes behind an acknowledgement.
-/

namespace PrReviewer
namespace Observability

open Lib

section Chains

variable {τ : Type}
variable {lower : PyStr → PyStr}
variable {level : RedactionLevel}
variable {origin : TraceOrigin}
variable {traceId : PyStr}
variable {timestamp : τ → PyStr}
variable {placement : PyStr → TracePlacement}

theorem chainOf_unlinked
    (previous : Option PyStr) (events : List (TraceEvent τ)) :
    (chainOf lower level origin traceId timestamp placement previous events).map
        TraceSegment.unlinked =
      events.map (segmentOf lower level origin traceId timestamp placement none) := by
  induction events generalizing previous with
  | nil => rfl
  | cons event rest ih =>
      rw [chainOf, List.map_cons, List.map_cons, ih]
      rfl

/-- The end of a chain is the chain of the last events. -/
theorem chainOf_eq_append
    {previous : Option PyStr} {events : List (TraceEvent τ)} {before after : List TraceSegment}
    (h : chainOf lower level origin traceId timestamp placement previous events =
      before ++ after) :
    ∃ earlier later parent, events = earlier ++ later ∧
      after = chainOf lower level origin traceId timestamp placement parent later := by
  induction before generalizing previous events with
  | nil => exact ⟨[], events, previous, rfl, h.symm⟩
  | cons first before ih =>
      cases events with
      | nil => cases h
      | cons event rest =>
          obtain ⟨_, hrest⟩ := List.cons.inj h
          obtain ⟨earlier, later, parent, rfl, hafter⟩ := ih hrest
          exact ⟨event :: earlier, later, parent, rfl, hafter⟩

theorem chainOf_append
    (previous : Option PyStr) (earlier later : List (TraceEvent τ)) :
    ∃ before parent,
      chainOf lower level origin traceId timestamp placement previous (earlier ++ later) =
        before ++ chainOf lower level origin traceId timestamp placement parent later := by
  induction earlier generalizing previous with
  | nil => exact ⟨[], previous, rfl⟩
  | cons event rest ih =>
      obtain ⟨before, parent, h⟩ := ih (some (spanOf origin event.sequence))
      exact ⟨segmentOf lower level origin traceId timestamp placement previous event :: before,
        parent, by rw [List.cons_append, chainOf, h, List.cons_append]⟩

theorem linked_chainOf
    (events : List (TraceEvent τ)) :
    Linked (chainOf lower level origin traceId timestamp placement none events) := by
  intro before segment after h
  rw [chainOf_parent h, Option.or_none]

end Chains

/-! ## Events behind an acknowledgement -/

section Adjacent

/-- Where a property ends in a list. -/
theorem exists_adjacent
    {α : Type} {p : α → Bool} {after : List α} {a b : α}
    (ha : p a = true) (hb : b ∈ after) (hnot : p b = false) (before : List α) :
    ∃ earlier c d later, before ++ a :: after = earlier ++ c :: d :: later ∧
      p c = true ∧ p d = false := by
  induction after generalizing a before with
  | nil => cases hb
  | cons next after ih =>
      cases hnext : p next with
      | false => exact ⟨before, a, next, after, rfl, ha, hnext⟩
      | true =>
          have hne : b ≠ next := by
            rintro rfl
            rw [hnext] at hnot
            cases hnot
          obtain ⟨earlier, c, d, later, heq, hc, hd⟩ :=
            ih hnext (List.mem_of_ne_of_mem hne hb) (before ++ [a])
          exact ⟨earlier, c, d, later, by simpa using heq, hc, hd⟩

/-- Every other hosted event comes before the acknowledgements. -/
def NothingAfterAcknowledged {δ : Type} (hostedEvents : List (TraceEvent δ)) : Prop :=
  ∀ ack ∈ hostedEvents, ∀ event ∈ hostedEvents, isPostLocal ack.kind = true →
    isPostLocal event.kind = false → event.sequence < ack.sequence

variable {δ : Type}
variable {lower : PyStr → PyStr}
variable {isoformat : δ → PyStr}
variable {level : RedactionLevel}
variable {traceId : PyStr}
variable {hostedEvents : List (TraceEvent δ)}

/-- The events of a segment that follows an acknowledgement. -/
theorem not_followsAcknowledged
    {segment ack : TraceSegment}
    (hnothing : NothingAfterAcknowledged hostedEvents) :
    ¬ FollowsAcknowledged
      (chainOf lower level .hostedOrigin traceId isoformat hostedPlacement none
        (sortOn TraceEvent.sequence hostedEvents)) segment ack := by
  rintro ⟨hkind, hack, before, after, hsplit⟩
  obtain ⟨earlier, later, parent, hevents, hchain⟩ := chainOf_eq_append hsplit
  have hsorted := pairwise_sortOn TraceEvent.sequence hostedEvents
  have hmem : ∀ event ∈ sortOn TraceEvent.sequence hostedEvents, event ∈ hostedEvents :=
    fun event => (perm_sortOn TraceEvent.sequence hostedEvents).mem_iff.mp
  rw [hevents] at hsorted hmem
  cases later with
  | nil => cases hchain
  | cons first rest =>
      obtain ⟨rfl, htail⟩ := List.cons.inj hchain
      cases rest with
      | nil => cases htail
      | cons second rest =>
          obtain ⟨rfl, _⟩ := List.cons.inj htail
          have hlt : second.sequence < first.sequence :=
            hnothing first (hmem first (by simp)) second (hmem second (by simp)) hack hkind
          have hle : first.sequence ≤ second.sequence :=
            List.rel_of_pairwise_cons (List.pairwise_append.mp hsorted).2.1
              (List.mem_cons_self ..)
          omega

/-- An event behind an acknowledgement leaves a segment whose parent is an acknowledgement. -/
theorem exists_followsAcknowledged
    (hnothing : ¬ NothingAfterAcknowledged hostedEvents)
    (hnodup : (hostedEvents.map TraceEvent.sequence).Nodup) :
    ∃ segment ack, FollowsAcknowledged
      (chainOf lower level .hostedOrigin traceId isoformat hostedPlacement none
        (sortOn TraceEvent.sequence hostedEvents)) segment ack ∧
        segment.parentSpanId = some ack.spanId := by
  rw [NothingAfterAcknowledged] at hnothing
  push Not at hnothing
  obtain ⟨ack, hack, event, hevent, hackKind, hkind, hle⟩ := hnothing
  have hmem : ∀ event, event ∈ sortOn TraceEvent.sequence hostedEvents ↔ event ∈ hostedEvents :=
    fun event => (perm_sortOn TraceEvent.sequence hostedEvents).mem_iff
  have hne : event ≠ ack := by
    rintro rfl
    rw [hkind] at hackKind
    cases hackKind
  obtain ⟨before, after, hsplit⟩ := List.append_of_mem ((hmem ack).mpr hack)
  have hbehind : event ∈ after := by
    have hin := (hmem event).mpr hevent
    have hsorted := pairwise_sortOn TraceEvent.sequence hostedEvents
    rw [hsplit] at hin hsorted
    rcases List.mem_append.mp hin with hbefore | hin
    · have hge := (List.pairwise_append.mp hsorted).2.2 event hbefore ack (List.mem_cons_self ..)
      exact absurd (List.inj_on_of_nodup_map hnodup hevent hack (le_antisymm hge hle)) hne
    · exact List.mem_of_ne_of_mem hne hin
  obtain ⟨earlier, first, second, later, hadjacent, hfirst, hsecond⟩ :=
    exists_adjacent (p := fun event => isPostLocal event.kind) hackKind hbehind hkind
      before
  rw [hsplit, hadjacent]
  obtain ⟨segments, parent, hchain⟩ : ∃ before parent,
      chainOf lower level .hostedOrigin traceId isoformat hostedPlacement none
          (earlier ++ first :: second :: later) =
        before ++ chainOf lower level .hostedOrigin traceId isoformat hostedPlacement parent
          (first :: second :: later) :=
    chainOf_append none earlier (first :: second :: later)
  rw [hchain]
  exact ⟨_, _, ⟨hsecond, hfirst, segments, _, rfl⟩, rfl⟩

end Adjacent

/-! ## The causal order -/

section Order

variable {δ : Type}
variable (lower : PyStr → PyStr)
variable (isoformat : δ → PyStr)
variable (level : RedactionLevel)

/-- A hosted `review_job_acknowledged`. -/
def TraceSegment.IsAcknowledgement (segment : TraceSegment) : Prop :=
  segment.origin = .hostedOrigin ∧ isPostLocal segment.kind = true

/-- Every parent stands before its children. -/
def ParentsFirst (segments : List TraceSegment) : Prop :=
  ∀ before segment after parent, segments = before ++ segment :: after →
    segment.parentSpanId = some parent → parent ∈ before.map TraceSegment.spanId

/-- What the segments of a job's events satisfy. -/
structure CausalOrder (traceId : PyStr) (hostedEvents : List (TraceEvent δ))
    (localEvents : List (TraceEvent PyStr)) (segments : List TraceSegment) : Prop where
  each_once : (segments.map TraceSegment.unlinked).Perm
    (hostedEvents.map
        (segmentOf lower level .hostedOrigin traceId isoformat hostedPlacement none) ++
      localEvents.map
        (segmentOf lower level .localOrigin traceId id (fun _ => .proven) none))
  spans_distinct : (segments.map TraceSegment.spanId).Nodup
  local_in_sequence : ∃ ordered : List (TraceEvent PyStr), ordered.Perm localEvents ∧
    ordered.Pairwise (fun a b => a.sequence < b.sequence) ∧
    (segments.filter (fun segment => segment.origin = .localOrigin)).map TraceSegment.spanId =
      ordered.map (fun event => spanOf .localOrigin event.sequence)
  local_before_acknowledged : segments.Pairwise (fun earlier later =>
    earlier.IsAcknowledgement → later.origin = .hostedOrigin)
  parent_placed : ∀ before segment after parent, segments = before ++ segment :: after →
    segment.parentSpanId = some parent →
      parent ∈ before.map TraceSegment.spanId ∨
        segment.origin = .hostedOrigin ∧ ¬ segment.IsAcknowledgement ∧
          ∃ ack ∈ after, ack.IsAcknowledgement ∧ ack.spanId = parent

variable {lower isoformat level}
variable {traceId : PyStr}
variable {hostedEvents : List (TraceEvent δ)} {localEvents : List (TraceEvent PyStr)}

theorem each_once_segmentsOf
    (hostedEvents : List (TraceEvent δ)) (localEvents : List (TraceEvent PyStr)) :
    ((segmentsOf lower isoformat level traceId hostedEvents localEvents).map
      TraceSegment.unlinked).Perm
        (hostedEvents.map
            (segmentOf lower level .hostedOrigin traceId isoformat hostedPlacement none) ++
          localEvents.map
            (segmentOf lower level .localOrigin traceId id (fun _ => .proven) none)) := by
  refine (perm_mergeChains (fun _ _ => rfl) _ _).trans ?_
  rw [chainOf_unlinked, chainOf_unlinked]
  exact ((perm_sortOn _ _).map _).append ((perm_sortOn _ _).map _)

theorem spans_segmentsOf
    (hhosted : (hostedEvents.map TraceEvent.sequence).Nodup)
    (hlocal : (localEvents.map TraceEvent.sequence).Nodup) :
    ((segmentsOf lower isoformat level traceId hostedEvents localEvents).map
      TraceSegment.spanId).Nodup := by
  refine (perm_mergeChains (fun _ _ => rfl) _ _).nodup_iff.mpr ?_
  rw [chainOf_spans, chainOf_spans]
  exact spans_nodup (((perm_sortOn _ _).map _).nodup_iff.mpr hhosted)
    (((perm_sortOn _ _).map _).nodup_iff.mpr hlocal)

theorem origin_linkAcknowledged
    {segments : List TraceSegment} {last : Option TraceSegment} {segment : TraceSegment}
    (hhosted : ∀ segment ∈ segments, segment.origin = .hostedOrigin)
    (h : segment ∈ linkAcknowledged segments last) :
    segment.origin = .hostedOrigin := by
  have horigin : segment.origin ∈ (linkAcknowledged segments last).map TraceSegment.origin :=
    List.mem_map_of_mem h
  rw [linkAcknowledged_map (fun _ _ => rfl)] at horigin
  obtain ⟨other, hother, heq⟩ := List.mem_map.mp horigin
  rw [← heq, hhosted other hother]

/-- The local segments of the list are the local chain. -/
theorem filter_local_mergeChains
    {hosted localSegments : List TraceSegment}
    (hhosted : ∀ segment ∈ hosted, segment.origin = .hostedOrigin)
    (hlocal : ∀ segment ∈ localSegments, segment.origin = .localOrigin) :
    (mergeChains hosted localSegments).filter (fun segment => segment.origin = .localOrigin) =
      localSegments := by
  have hnone : ∀ segments : List TraceSegment,
      (∀ segment ∈ segments, segment.origin = .hostedOrigin) →
        segments.filter (fun segment => segment.origin = .localOrigin) = [] := by
    intro segments hsegments
    refine List.filter_eq_nil_iff.mpr (fun segment hsegment => ?_)
    simp [hsegments segment hsegment]
  have hkept : ∀ p : TraceSegment → Bool, ∀ segment ∈ hosted.filter p,
      segment.origin = .hostedOrigin :=
    fun p segment hsegment => hhosted segment (List.mem_filter.mp hsegment).1
  rw [mergeChains, List.filter_append, List.filter_append, hnone _ (hkept _),
    hnone _ (fun _ => origin_linkAcknowledged (hkept _)), List.nil_append, List.append_nil]
  exact List.filter_eq_self.mpr (fun segment hsegment => by simp [hlocal segment hsegment])

theorem local_before_mergeChains
    {hosted localSegments : List TraceSegment}
    (hhosted : ∀ segment ∈ hosted, segment.origin = .hostedOrigin)
    (hlocal : ∀ segment ∈ localSegments, segment.origin = .localOrigin) :
    (mergeChains hosted localSegments).Pairwise (fun earlier later =>
      earlier.IsAcknowledgement → later.origin = .hostedOrigin) := by
  have hkept : ∀ p : TraceSegment → Bool, ∀ segment ∈ hosted.filter p,
      segment.origin = .hostedOrigin :=
    fun p segment hsegment => hhosted segment (List.mem_filter.mp hsegment).1
  have hother : ∀ segment ∈ hosted.filter (fun segment => !isPostLocal segment.kind) ++
      localSegments, ¬ segment.IsAcknowledgement := by
    rintro segment hsegment ⟨horigin, hkind⟩
    rcases List.mem_append.mp hsegment with hpre | hmem
    · simpa [hkind] using (List.mem_filter.mp hpre).2
    · rw [hlocal segment hmem] at horigin
      cases horigin
  rw [mergeChains, List.pairwise_append]
  refine ⟨?_, ?_, ?_⟩
  · exact List.pairwise_of_forall_mem_list
      (fun earlier hearlier _ _ hack => absurd hack (hother earlier hearlier))
  · exact List.pairwise_of_forall_mem_list
      (fun _ _ later hlater _ => origin_linkAcknowledged (hkept _) hlater)
  · exact fun earlier hearlier _ _ hack => absurd hack (hother earlier hearlier)

theorem causalOrder_segmentsOf
    (hhosted : (hostedEvents.map TraceEvent.sequence).Nodup)
    (hlocal : (localEvents.map TraceEvent.sequence).Nodup) :
    CausalOrder lower isoformat level traceId hostedEvents localEvents
      (segmentsOf lower isoformat level traceId hostedEvents localEvents) where
  each_once := each_once_segmentsOf hostedEvents localEvents
  spans_distinct := spans_segmentsOf hhosted hlocal
  local_in_sequence := by
    refine ⟨sortOn TraceEvent.sequence localEvents, perm_sortOn _ _, ?_, ?_⟩
    · have hnodup := ((perm_sortOn TraceEvent.sequence localEvents).map _).nodup_iff.mpr hlocal
      refine ((pairwise_sortOn TraceEvent.sequence localEvents).and
        (List.pairwise_map.mp hnodup)).imp ?_
      exact fun h => lt_of_le_of_ne h.1 h.2
    · rw [segmentsOf, filter_local_mergeChains (fun _ h => (mem_chainOf h).1)
        (fun _ h => (mem_chainOf h).1), chainOf_spans]
  local_before_acknowledged :=
    local_before_mergeChains (fun _ h => (mem_chainOf h).1) (fun _ h => (mem_chainOf h).1)
  parent_placed := by
    intro before segment after parent hsplit hparent
    rcases parent_of_mergeChains (linked_chainOf _) (linked_chainOf _) hsplit hparent with
      hmem | ⟨ack, hfollows, rfl, other, hother, hspan, hkind, horigin⟩
    · exact .inl hmem
    · obtain ⟨hsegment, hack, earlier, later, hchain⟩ := hfollows
      have hin : ∀ s ∈ chainOf lower level .hostedOrigin traceId isoformat hostedPlacement none
          (sortOn TraceEvent.sequence hostedEvents), s.origin = .hostedOrigin :=
        fun _ h => (mem_chainOf h).1
      rw [hchain] at hin
      refine .inr ⟨hin segment (by simp), ?_, other, hother, ⟨?_, ?_⟩, hspan⟩
      · rintro ⟨_, hkind⟩
        rw [hsegment] at hkind
        cases hkind
      · rw [horigin, hin ack (by simp)]
      · rw [hkind, hack]

end Order

/-! ## Parents first -/

section Parents

variable {δ : Type}
variable {lower : PyStr → PyStr}
variable {isoformat : δ → PyStr}
variable {level : RedactionLevel}
variable {traceId : PyStr}
variable {hostedEvents : List (TraceEvent δ)} {localEvents : List (TraceEvent PyStr)}

theorem parentsFirst_segmentsOf
    (hnothing : NothingAfterAcknowledged hostedEvents) :
    ParentsFirst (segmentsOf lower isoformat level traceId hostedEvents localEvents) := by
  intro before segment after parent hsplit hparent
  rcases parent_of_mergeChains (linked_chainOf _) (linked_chainOf _) hsplit hparent with
    hmem | ⟨ack, hfollows, _⟩
  · exact hmem
  · exact absurd hfollows (not_followsAcknowledged hnothing)

/-- A segment that follows an acknowledgement stands before its parent. -/
theorem not_parentsFirst_segmentsOf
    (hhosted : (hostedEvents.map TraceEvent.sequence).Nodup)
    (hnothing : ¬ NothingAfterAcknowledged hostedEvents) :
    ¬ ParentsFirst (segmentsOf lower isoformat level traceId hostedEvents localEvents) := by
  intro hfirst
  obtain ⟨segment, ack, ⟨hsegment, hack, earlier, later, hchain⟩, hparent⟩ :
      ∃ segment ack, FollowsAcknowledged
        (chainOf lower level .hostedOrigin traceId isoformat hostedPlacement none
          (sortOn TraceEvent.sequence hostedEvents)) segment ack ∧
          segment.parentSpanId = some ack.spanId :=
    exists_followsAcknowledged hnothing hhosted
  have hevents : ∀ s ∈ chainOf lower level .hostedOrigin traceId isoformat hostedPlacement none
      (sortOn TraceEvent.sequence hostedEvents), ∃ event ∈ hostedEvents,
        s.kind = event.kind ∧ s.spanId = spanOf .hostedOrigin event.sequence := by
    intro s hs
    obtain ⟨_, event, hevent, hsame⟩ := mem_chainOf hs
    exact ⟨event, (perm_sortOn _ _).mem_iff.mp hevent, hsame⟩
  rw [segmentsOf, mergeChains, hchain] at hfirst
  rw [hchain] at hevents
  rw [List.filter_append, List.filter_cons_of_neg (by simp [hack]),
    List.filter_cons_of_pos (by simp [hsegment])] at hfirst
  rw [List.append_assoc, List.append_assoc, List.cons_append] at hfirst
  have hparents := hfirst _ segment _ ack.spanId rfl hparent
  obtain ⟨other, hother, hspan⟩ := List.mem_map.mp hparents
  obtain ⟨hearlier, hkind⟩ := List.mem_filter.mp hother
  obtain ⟨event, hevent, hotherKind, hotherSpan⟩ :=
    hevents other (List.mem_append_left _ hearlier)
  obtain ⟨ackEvent, hackEvent, hackKind, hackSpan⟩ := hevents ack (by simp)
  have hsequence : event.sequence = ackEvent.sequence :=
    spanOf_injective .hostedOrigin (by rw [← hotherSpan, ← hackSpan, hspan])
  have heq := List.inj_on_of_nodup_map hhosted hevent hackEvent hsequence
  rw [hotherKind, heq, ← hackKind, hack] at hkind
  cases hkind

end Parents

/-! ## The order and the timestamps of the events -/

section Independence

/-- The event without its timestamp. -/
def TraceEvent.untimed {τ : Type} (event : TraceEvent τ) : TraceEvent Unit :=
  { event with createdAt := () }

/-- The segment without its timestamp. -/
def TraceSegment.untimed (segment : TraceSegment) : TraceSegment :=
  { segment with timestamp := ⟨[]⟩ }

/-- The reconstruction without the timestamps of its segments. -/
def TraceReconstruction.untimed (result : TraceReconstruction) : TraceReconstruction :=
  { result with segments := result.segments.map TraceSegment.untimed }

/-- The events of a store in another order and at other times. -/
def SameEvents {τ : Type} (store other : Option (StoreTrace τ)) : Prop :=
  store.map StoreTrace.traceId = other.map StoreTrace.traceId ∧
    ((eventsOf store).map TraceEvent.untimed).Perm ((eventsOf other).map TraceEvent.untimed)

section Chain

variable {τ : Type}
variable {lower : PyStr → PyStr}
variable {level : RedactionLevel}
variable {origin : TraceOrigin}
variable {traceId : PyStr}
variable {timestamp : τ → PyStr}
variable {placement : PyStr → TracePlacement}

theorem chainOf_untimed
    (previous : Option PyStr) (events : List (TraceEvent τ)) :
    (chainOf lower level origin traceId timestamp placement previous events).map
        TraceSegment.untimed =
      chainOf lower level origin traceId (fun _ => ⟨[]⟩) placement previous
        (events.map TraceEvent.untimed) := by
  induction events generalizing previous with
  | nil => rfl
  | cons event rest ih =>
      rw [chainOf, List.map_cons, List.map_cons, chainOf, ih]
      rfl

/-- The chain of the events in order does not depend on how they were listed. -/
theorem sortOn_untimed
    {events events' : List (TraceEvent τ)}
    (hperm : (events.map TraceEvent.untimed).Perm (events'.map TraceEvent.untimed))
    (hnodup : (events.map TraceEvent.sequence).Nodup) :
    (sortOn TraceEvent.sequence events).map TraceEvent.untimed =
      (sortOn TraceEvent.sequence events').map TraceEvent.untimed := by
  have hkey : ∀ event : TraceEvent τ, event.untimed.sequence = event.sequence := fun _ => rfl
  rw [map_sortOn hkey, map_sortOn hkey]
  refine sortOn_eq_of_perm hperm ?_
  intro first hfirst second hsecond hsame
  obtain ⟨event, hevent, rfl⟩ := List.mem_map.mp hfirst
  obtain ⟨other, hother, rfl⟩ := List.mem_map.mp hsecond
  rw [List.inj_on_of_nodup_map hnodup hevent hother hsame]

theorem sequence_of_untimed
    {events events' : List (TraceEvent τ)}
    (hperm : (events.map TraceEvent.untimed).Perm (events'.map TraceEvent.untimed)) :
    (events.map TraceEvent.sequence).Perm (events'.map TraceEvent.sequence) := by
  have hmap : ∀ events : List (TraceEvent τ), events.map TraceEvent.sequence =
      (events.map TraceEvent.untimed).map TraceEvent.sequence := by
    intro events
    rw [List.map_map]
    rfl
  rw [hmap, hmap]
  exact hperm.map _

end Chain

theorem mergeChains_untimed
    (hosted localSegments : List TraceSegment) :
    (mergeChains hosted localSegments).map TraceSegment.untimed =
      mergeChains (hosted.map TraceSegment.untimed)
        (localSegments.map TraceSegment.untimed) := by
  have hlink : ∀ segments last, (linkAcknowledged segments last).map TraceSegment.untimed =
      linkAcknowledged (segments.map TraceSegment.untimed)
        (last.map TraceSegment.untimed) := by
    intro segments last
    cases segments <;> cases last <;> rfl
  simp only [mergeChains, List.map_append, hlink, List.filter_map, List.getLast?_map]
  rfl

variable {δ : Type}
variable {lower : PyStr → PyStr}
variable {isoformat : δ → PyStr}
variable {level : RedactionLevel}
variable {traceId : PyStr}

theorem segmentsOf_untimed
    {hosted hosted' : List (TraceEvent δ)} {localEvents localEvents' : List (TraceEvent PyStr)}
    (hhosted : (hosted.map TraceEvent.untimed).Perm (hosted'.map TraceEvent.untimed))
    (hlocal : (localEvents.map TraceEvent.untimed).Perm (localEvents'.map TraceEvent.untimed))
    (hnodup : (hosted.map TraceEvent.sequence).Nodup)
    (hnodup' : (localEvents.map TraceEvent.sequence).Nodup) :
    (segmentsOf lower isoformat level traceId hosted localEvents).map TraceSegment.untimed =
      (segmentsOf lower isoformat level traceId hosted' localEvents').map
        TraceSegment.untimed := by
  simp only [segmentsOf, mergeChains_untimed, chainOf_untimed, sortOn_untimed hhosted hnodup,
    sortOn_untimed hlocal hnodup']

theorem segmentsOf_of_perm
    {hosted hosted' : List (TraceEvent δ)} {localEvents localEvents' : List (TraceEvent PyStr)}
    (hhosted : hosted.Perm hosted') (hlocal : localEvents.Perm localEvents')
    (hnodup : (hosted.map TraceEvent.sequence).Nodup)
    (hnodup' : (localEvents.map TraceEvent.sequence).Nodup) :
    segmentsOf lower isoformat level traceId hosted localEvents =
      segmentsOf lower isoformat level traceId hosted' localEvents' := by
  rw [segmentsOf, segmentsOf,
    sortOn_eq_of_perm hhosted (fun _ ha _ hb => List.inj_on_of_nodup_map hnodup ha hb),
    sortOn_eq_of_perm hlocal (fun _ ha _ hb => List.inj_on_of_nodup_map hnodup' ha hb)]

end Independence

/-! ## The reconstructed trace -/

section Reconstruction

theorem SameEvents.isNone
    {τ : Type} {store other : Option (StoreTrace τ)}
    (h : SameEvents store other) :
    other.isNone = store.isNone := by
  have hmap := congrArg Option.isNone h.1
  simpa using hmap.symm

theorem SameEvents.short
    {τ : Type} {store other : Option (StoreTrace τ)}
    (h : SameEvents store other)
    (hshort : ∀ event ∈ eventsOf store, event.sequence.natAbs < 10 ^ maxStrDigits) :
    ∀ event ∈ eventsOf other, event.sequence.natAbs < 10 ^ maxStrDigits := by
  intro event hevent
  have hmem : event.sequence ∈ (eventsOf store).map TraceEvent.sequence :=
    (sequence_of_untimed h.2).mem_iff.mpr (List.mem_map_of_mem hevent)
  obtain ⟨original, horiginal, heq⟩ := List.mem_map.mp hmem
  rw [← heq]
  exact hshort original horiginal

/-- The trace ids agree whatever the events. -/
theorem SameEvents.ids
    {τ υ : Type} {hosted hosted' : Option (StoreTrace τ)}
    {localTrace localTrace' : Option (StoreTrace υ)}
    (h : SameEvents hosted hosted') (h' : SameEvents localTrace localTrace')
    (hids : ∀ hostedStore ∈ hosted, ∀ localStore ∈ localTrace,
      hostedStore.traceId = localStore.traceId) :
    ∀ hostedStore ∈ hosted', ∀ localStore ∈ localTrace',
      hostedStore.traceId = localStore.traceId := by
  rintro hostedStore rfl localStore rfl
  obtain ⟨store, hstore, heq⟩ := Option.map_eq_some_iff.mp h.1
  obtain ⟨store', hstore', heq'⟩ := Option.map_eq_some_iff.mp h'.1
  rw [← heq, ← heq']
  exact hids store hstore store' hstore'

variable {δ : Type}

/-- The segments of a reconstruction are in causal order whatever the order and the
timestamps of the events, and all parents stand before their children exactly where every
other hosted event comes before the acknowledgements. -/
theorem reconstruct_trace_causal_order
    (lower : PyStr → PyStr) (isoformat : δ → PyStr) (level : RedactionLevel) (jobId : PyStr)
    (hosted : Option (StoreTrace δ)) (localTrace : Option (StoreTrace PyStr))
    (hids : ∀ hostedStore ∈ hosted, ∀ localStore ∈ localTrace,
      hostedStore.traceId = localStore.traceId)
    (hhosted : ((eventsOf hosted).map TraceEvent.sequence).Nodup)
    (hlocal : ((eventsOf localTrace).map TraceEvent.sequence).Nodup)
    (hshort : ∀ event ∈ eventsOf hosted, event.sequence.natAbs < 10 ^ maxStrDigits)
    (hshort' : ∀ event ∈ eventsOf localTrace, event.sequence.natAbs < 10 ^ maxStrDigits) :
    ∃ result, reconstructTrace lower isoformat level jobId hosted localTrace = .ok result ∧
      CausalOrder lower isoformat level (result.traceId.getD ⟨[]⟩) (eventsOf hosted)
        (eventsOf localTrace) result.segments ∧
      (ParentsFirst result.segments ↔ NothingAfterAcknowledged (eventsOf hosted)) ∧
      ∀ hosted' localTrace', SameEvents hosted hosted' → SameEvents localTrace localTrace' →
        ∃ result',
          reconstructTrace lower isoformat level jobId hosted' localTrace' = .ok result' ∧
          result'.untimed = result.untimed ∧
          ((eventsOf hosted).Perm (eventsOf hosted') →
            (eventsOf localTrace).Perm (eventsOf localTrace') → result' = result) := by
  refine ⟨_, reconstructTrace_eq hids hshort hshort', causalOrder_segmentsOf hhosted hlocal,
    ⟨?_, parentsFirst_segmentsOf⟩, ?_⟩
  · intro hfirst
    by_contra hnothing
    exact not_parentsFirst_segmentsOf hhosted hnothing hfirst
  · intro hosted' localTrace' hsame hsame'
    have hid : traceIdOf hosted' localTrace' = traceIdOf hosted localTrace := by
      rw [traceIdOf, traceIdOf, hsame.1, hsame'.1]
    have hmissing : missingOrigins hosted' localTrace' = missingOrigins hosted localTrace := by
      rw [missingOrigins, missingOrigins, hsame.isNone, hsame'.isNone]
    refine ⟨_, reconstructTrace_eq (hsame.ids hsame' hids) (hsame.short hshort)
      (hsame'.short hshort'), ?_, ?_⟩
    · rw [TraceReconstruction.untimed, TraceReconstruction.untimed, hid, hmissing,
        segmentsOf_untimed hsame.2 hsame'.2 hhosted hlocal]
    · intro hperm hperm'
      rw [hid, hmissing, segmentsOf_of_perm hperm hperm' hhosted hlocal]

/-- An event of a job whose payload is empty. -/
def sampleEvent (sequence : Int) (kind timestamp : String) : TraceEvent PyStr where
  sequence := sequence
  kind := .ofString kind
  payload := []
  createdAt := .ofString timestamp

/-- A hosted store whose job fails after it was acknowledged. -/
def failedAfterAcknowledged : StoreTrace PyStr where
  traceId := .ofString "trace-1"
  events := [sampleEvent 2 "review_job_failed" "2026-07-04T10:00:09+00:00",
    sampleEvent 1 "review_job_acknowledged" "2026-07-04T10:00:05+00:00"]

/-- A job acknowledged after its local events, whose model call comes first. -/
def acknowledgedLast : StoreTrace PyStr where
  traceId := .ofString "trace-1"
  events := [sampleEvent 7 "review_job_acknowledged" "2026-07-04T10:00:05+00:00",
    sampleEvent 3 "model_call.recorded" "2026-07-04T10:00:01+00:00"]

def twoLocalEvents : StoreTrace PyStr where
  traceId := .ofString "trace-1"
  events := [sampleEvent 2 "publish" "2026-07-04T10:00:04+00:00",
    sampleEvent 1 "review" "2026-07-04T10:00:02+00:00"]

theorem reconstruct_trace_causal_order_acknowledged :
    ∃ result, reconstructTrace id id .redacted (.ofString "job-1") (some acknowledgedLast)
        (some twoLocalEvents) = .ok result ∧
      CausalOrder id id .redacted (result.traceId.getD ⟨[]⟩) (eventsOf (some acknowledgedLast))
        (eventsOf (some twoLocalEvents)) result.segments ∧
      (ParentsFirst result.segments ↔
        NothingAfterAcknowledged (eventsOf (some acknowledgedLast))) ∧
      ∀ hosted' localTrace', SameEvents (some acknowledgedLast) hosted' →
        SameEvents (some twoLocalEvents) localTrace' →
        ∃ result',
          reconstructTrace id id .redacted (.ofString "job-1") hosted' localTrace' =
            .ok result' ∧
          result'.untimed = result.untimed ∧
          ((eventsOf (some acknowledgedLast)).Perm (eventsOf hosted') →
            (eventsOf (some twoLocalEvents)).Perm (eventsOf localTrace') → result' = result) := by
  have hshort : ∀ n : Nat, n < 10 ^ 1 → n < 10 ^ maxStrDigits :=
    fun n hn => lt_of_lt_of_le hn (Nat.pow_le_pow_right (by omega) (by decide))
  refine reconstruct_trace_causal_order id id .redacted (.ofString "job-1")
    (some acknowledgedLast) (some twoLocalEvents) ?_ (by decide) (by decide) ?_ ?_
  · rintro _ ⟨⟩ _ ⟨⟩
    rfl
  · intro event hevent
    refine hshort _ ?_
    revert event
    decide
  · intro event hevent
    refine hshort _ ?_
    revert event
    decide

/-- The failure is a child of the acknowledgement and stands before it. -/
theorem child_before_acknowledgement :
    ((eventsOf (some failedAfterAcknowledged)).map TraceEvent.sequence).Nodup ∧
      ∃ result, reconstructTrace id id .redacted (.ofString "job-1")
          (some failedAfterAcknowledged) none = .ok result ∧
        result.segments.map (fun segment => (segment.spanId, segment.parentSpanId)) =
          [(.ofString "hosted:2", some (.ofString "hosted:1")),
            (.ofString "hosted:1", none)] ∧
        ¬ ParentsFirst result.segments := by
  have hshort : ∀ event ∈ eventsOf (some failedAfterAcknowledged),
      event.sequence.natAbs < 10 ^ maxStrDigits := by
    have hlimit : 10 ^ 1 ≤ 10 ^ maxStrDigits := Nat.pow_le_pow_right (by omega) (by decide)
    intro event hevent
    refine lt_of_lt_of_le ?_ hlimit
    revert event
    decide
  refine ⟨by decide, _, reconstructTrace_eq (by simp) hshort (by simp [eventsOf]),
    by decide +kernel, ?_⟩
  intro hfirst
  have hmem := hfirst [] _ _ (.ofString "hosted:1") rfl rfl
  cases hmem

end Reconstruction

end Observability
end PrReviewer
