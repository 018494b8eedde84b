import Mathlib.Data.Finset.Basic
import Mathlib.Data.List.Basic
import Mathlib.Tactic
import PrReviewer.Github.PostReview

/-!
# The fan-out of notifications

notifications/dispatch.py.  A call tries its channels one after the other and remembers the
pairs of an idempotency key and a channel id whose send succeeded, in a set the calls share.

What `send` does is a parameter, which may answer every attempt differently; the attempts
are kept beside the set.
-/

namespace PrReviewer
namespace Notifications

open Github

/-- `NotificationChannel`, as far as the fan-out reads it. -/
structure NotificationChannel where
  id : String
  confidentiality : Confidentiality
  revoked : Bool
  id_ne : id ≠ ""

structure NotificationPreview where
  title : String
  body : String
  confidentiality : Confidentiality
  texts_ne : title ≠ "" ∧ body ≠ ""

structure SendResult where
  ok : Bool
  errorKind : Option String
deriving DecidableEq, Repr

/-- What becomes of a call of `send`. -/
inductive SendOutcome where
  | returns (result : SendResult)
  | raises
deriving DecidableEq, Repr

structure ChannelDelivery where
  channelId : String
  ok : Bool
  errorKind : Option String
deriving DecidableEq, Repr

structure FanOutResult where
  deliveries : List ChannelDelivery
deriving DecidableEq, Repr

/-- A call of `send`. -/
structure Attempt where
  idempotencyKey : String
  channel : NotificationChannel
  preview : NotificationPreview
  outcome : SendOutcome

/-- The pair that is remembered. -/
def Attempt.slot (attempt : Attempt) : String × String :=
  (attempt.idempotencyKey, attempt.channel.id)

def SendOutcome.succeeded : SendOutcome → Bool
  | .returns result => result.ok
  | .raises => false

def Attempt.succeeded (attempt : Attempt) : Bool :=
  attempt.outcome.succeeded

/-- `seen_keys`, and the calls of `send` so far. -/
structure Sends where
  remembered : Finset (String × String)
  attempts : List Attempt

/-- The arguments of a call of `dispatch_notifications`, without `send` and `seen_keys`. -/
structure DispatchCall where
  preview : NotificationPreview
  channels : List NotificationChannel
  idempotencyKey : String

/-- RestrictedContentRefused. -/
inductive DispatchError where
  | restrictedContentRefused
deriving DecidableEq, Repr

/-- `error_kind or "delivery_failed"`. -/
def failureKind (result : SendResult) : String :=
  match result.errorKind with
  | some kind => if kind = "" then "delivery_failed" else kind
  | none => "delivery_failed"

section Dispatch

-- What `send` does, given the number of its calls before.
variable (send : Nat → NotificationChannel → NotificationPreview → SendOutcome)

/-- The body of the loop over the channels. -/
def deliver (call : DispatchCall) (sends : Sends) (channel : NotificationChannel) :
    Sends × ChannelDelivery :=
  let key := (call.idempotencyKey, channel.id)
  if channel.revoked = true then
    (sends, ⟨channel.id, false, some "revoked"⟩)
  else if key ∈ sends.remembered then
    (sends, ⟨channel.id, true, some "duplicate"⟩)
  else
    let outcome := send sends.attempts.length channel call.preview
    let attempts := sends.attempts ++ [⟨call.idempotencyKey, channel, call.preview, outcome⟩]
    match outcome with
    | .raises => ({ sends with attempts := attempts }, ⟨channel.id, false, some "delivery_failed"⟩)
    | .returns result =>
        if result.ok = true then
          (⟨insert key sends.remembered, attempts⟩, ⟨channel.id, true, none⟩)
        else
          ({ sends with attempts := attempts }, ⟨channel.id, false, some (failureKind result)⟩)

/-- The loop over the channels. -/
def fanOut (call : DispatchCall) : Sends → List NotificationChannel → Sends × List ChannelDelivery
  | sends, [] => (sends, [])
  | sends, channel :: rest =>
      let first := deliver send call sends channel
      let later := fanOut call first.1 rest
      (later.1, first.2 :: later.2)

/-- `dispatch_notifications`. -/
def dispatchNotifications (call : DispatchCall) (sends : Sends) :
    Sends × Except DispatchError FanOutResult :=
  if call.preview.confidentiality = .restricted ∧
      ∃ channel ∈ call.channels, channel.confidentiality ≠ .restricted then
    (sends, .error .restrictedContentRefused)
  else
    let result := fanOut send call sends call.channels
    (result.1, .ok ⟨result.2⟩)

/-- The calls one after the other on one set, whatever they return. -/
def dispatchAll (sends : Sends) (calls : List DispatchCall) : Sends :=
  calls.foldl (fun sends call => (dispatchNotifications send call sends).1) sends

/-- A send of the slot has succeeded, or the slot was in the set from the start. -/
def Done (initial : Finset (String × String)) (sends : Sends) (slot : String × String) : Prop :=
  slot ∈ initial ∨ ∃ attempt ∈ sends.attempts, attempt.slot = slot ∧ attempt.succeeded = true

/-- No attempt follows a success of its slot. -/
def NoneAfterSuccess (attempts : List Attempt) : Prop :=
  attempts.Pairwise fun earlier later => earlier.slot = later.slot → earlier.succeeded = false

/-- The attempts of a slot that succeeded. -/
def successes (slot : String × String) (attempts : List Attempt) : List Attempt :=
  attempts.filter fun attempt => attempt.slot = slot ∧ attempt.succeeded = true

/-- The pair was not in the set from the start, and the channel may have the preview. -/
def Aimed (initial : Finset (String × String)) (attempt : Attempt) : Prop :=
  attempt.slot ∉ initial ∧
    attempt.channel.revoked = false ∧
    (attempt.preview.confidentiality = .restricted →
      attempt.channel.confidentiality = .restricted)

/-- What every call keeps. -/
structure Kept (initial : Finset (String × String)) (sends : Sends) : Prop where
  remembered : ∀ slot, slot ∈ sends.remembered ↔ Done initial sends slot
  once : NoneAfterSuccess sends.attempts
  aimed : ∀ attempt ∈ sends.attempts, Aimed initial attempt

/-- What the turn of a channel does, whatever became of the channels before it. -/
structure Turn (initial : Finset (String × String)) (call : DispatchCall)
    (before after : Sends) (channel : NotificationChannel) (delivery : ChannelDelivery) :
    Prop where
  named : delivery.channelId = channel.id
  revoked : channel.revoked = true → after = before ∧ delivery.ok = false
  done : channel.revoked = false → Done initial before (call.idempotencyKey, channel.id) →
    after = before ∧ delivery.ok = true
  tried : channel.revoked = false → ¬ Done initial before (call.idempotencyKey, channel.id) →
    ∃ outcome,
      after.attempts =
        before.attempts ++ [⟨call.idempotencyKey, channel, call.preview, outcome⟩] ∧
      delivery.ok = outcome.succeeded

theorem deliver_cases
    (call : DispatchCall) (sends : Sends) (channel : NotificationChannel) :
    (channel.revoked = true ∧
      deliver send call sends channel = (sends, ⟨channel.id, false, some "revoked"⟩)) ∨
    (channel.revoked = false ∧ (call.idempotencyKey, channel.id) ∈ sends.remembered ∧
      deliver send call sends channel = (sends, ⟨channel.id, true, some "duplicate"⟩)) ∨
    (channel.revoked = false ∧ (call.idempotencyKey, channel.id) ∉ sends.remembered ∧
      ∃ outcome errorKind,
        deliver send call sends channel =
          (⟨if outcome.succeeded = true then
                insert (call.idempotencyKey, channel.id) sends.remembered
              else sends.remembered,
            sends.attempts ++ [⟨call.idempotencyKey, channel, call.preview, outcome⟩]⟩,
           ⟨channel.id, outcome.succeeded, errorKind⟩)) := by
  by_cases hrevoked : channel.revoked = true
  · exact Or.inl ⟨hrevoked, by simp only [deliver, if_pos hrevoked]⟩
  · have hlive : channel.revoked = false := by simpa using hrevoked
    by_cases hseen : (call.idempotencyKey, channel.id) ∈ sends.remembered
    · refine Or.inr (Or.inl ⟨hlive, hseen, ?_⟩)
      simp only [deliver, if_neg hrevoked, if_pos hseen]
    · refine Or.inr (Or.inr ⟨hlive, hseen, ?_⟩)
      cases houtcome : send sends.attempts.length channel call.preview with
      | raises =>
          refine ⟨.raises, some "delivery_failed", ?_⟩
          simp [deliver, hlive, hseen, houtcome, SendOutcome.succeeded]
      | returns result =>
          cases hok : result.ok with
          | true =>
              refine ⟨.returns result, none, ?_⟩
              simp [deliver, hlive, hseen, houtcome, SendOutcome.succeeded, hok]
          | false =>
              refine ⟨.returns result, some (failureKind result), ?_⟩
              simp [deliver, hlive, hseen, houtcome, SendOutcome.succeeded, hok]

section Attempts

variable {initial : Finset (String × String)}

theorem done_append_iff
    (sends after : Sends) (attempt : Attempt)
    (hattempts : after.attempts = sends.attempts ++ [attempt])
    (slot : String × String) :
    Done initial after slot ↔
      Done initial sends slot ∨ (attempt.slot = slot ∧ attempt.succeeded = true) := by
  simp only [Done, hattempts, List.mem_append, List.mem_singleton]
  constructor
  · rintro (hinitial | ⟨a, ha | rfl, hslot⟩)
    · exact Or.inl (Or.inl hinitial)
    · exact Or.inl (Or.inr ⟨a, ha, hslot⟩)
    · exact Or.inr hslot
  · rintro ((hinitial | ⟨a, ha, hslot⟩) | hslot)
    · exact Or.inl hinitial
    · exact Or.inr ⟨a, Or.inl ha, hslot⟩
    · exact Or.inr ⟨attempt, Or.inr rfl, hslot⟩

/-- A slot with no success yet may be tried again. -/
theorem NoneAfterSuccess.append
    (sends : Sends) (attempt : Attempt)
    (honce : NoneAfterSuccess sends.attempts)
    (hopen : ¬ Done initial sends attempt.slot) :
    NoneAfterSuccess (sends.attempts ++ [attempt]) := by
  rw [NoneAfterSuccess, List.pairwise_append]
  refine ⟨honce, List.pairwise_singleton _ _, ?_⟩
  intro earlier hearlier later hlater hslot
  have hsame : later = attempt := by simpa using hlater
  subst hsame
  cases hdone : earlier.succeeded with
  | false => rfl
  | true => exact absurd (Or.inr ⟨earlier, hearlier, hslot, hdone⟩) hopen

theorem NoneAfterSuccess.successes_length_le
    (slot : String × String) (attempts : List Attempt)
    (hattempts : NoneAfterSuccess attempts) :
    (successes slot attempts).length ≤ 1 := by
  induction attempts with
  | nil => exact Nat.zero_le 1
  | cons first rest ih =>
      obtain ⟨hfirst, hrest⟩ := List.pairwise_cons.mp hattempts
      by_cases hslot : first.slot = slot ∧ first.succeeded = true
      · have hnone : successes slot rest = [] := by
          rw [successes, List.filter_eq_nil_iff]
          intro later hlater hsame
          have hsame' : later.slot = slot ∧ later.succeeded = true := by simpa using hsame
          have := hfirst later hlater (hslot.1.trans hsame'.1.symm)
          rw [hslot.2] at this
          cases this
        have hcons : successes slot (first :: rest) = first :: successes slot rest := by
          simp [successes, hslot]
        rw [hcons, hnone]
        exact le_refl 1
      · have hcons : successes slot (first :: rest) = successes slot rest := by
          simp only [successes, List.filter_cons, decide_eq_true_eq, if_neg hslot]
        rw [hcons]
        exact ih hrest

end Attempts

section Steps

variable {initial : Finset (String × String)}

theorem Kept.start : Kept initial ⟨initial, []⟩ where
  remembered := by simp [Done]
  once := List.Pairwise.nil
  aimed := by simp

theorem Kept.deliver
    (call : DispatchCall) (sends : Sends) (channel : NotificationChannel)
    (hkept : Kept initial sends)
    (hallowed : call.preview.confidentiality = .restricted →
      channel.confidentiality = .restricted) :
    Kept initial (deliver send call sends channel).1 := by
  rcases deliver_cases send call sends channel with
    ⟨-, heq⟩ | ⟨-, -, heq⟩ | ⟨hlive, hopen, outcome, errorKind, heq⟩
  · rw [heq]
    exact hkept
  · rw [heq]
    exact hkept
  · rw [heq]
    let attempt : Attempt := ⟨call.idempotencyKey, channel, call.preview, outcome⟩
    have hopen' : ¬ Done initial sends attempt.slot := by
      rwa [← hkept.remembered]
    refine ⟨?_, hkept.once.append sends attempt hopen', ?_⟩
    · intro slot
      rw [done_append_iff sends _ attempt rfl slot, ← hkept.remembered slot]
      cases hsucceeded : outcome.succeeded with
      | true => simp [attempt, Attempt.slot, Attempt.succeeded, hsucceeded, or_comm, eq_comm]
      | false => simp [attempt, Attempt.succeeded, hsucceeded]
    · intro a ha
      rcases List.mem_append.mp ha with hold | hnew
      · exact hkept.aimed a hold
      · have hsame : a = attempt := by simpa using hnew
        rw [hsame]
        exact ⟨fun h => hopen' (Or.inl h), hlive, hallowed⟩

theorem deliver_turn
    (call : DispatchCall) (sends : Sends) (channel : NotificationChannel)
    (hkept : Kept initial sends) :
    Turn initial call sends (deliver send call sends channel).1 channel
      (deliver send call sends channel).2 := by
  rcases deliver_cases send call sends channel with
    ⟨hrevoked, heq⟩ | ⟨hlive, hseen, heq⟩ | ⟨hlive, hopen, outcome, errorKind, heq⟩
  · rw [heq]
    exact ⟨rfl, fun _ => ⟨rfl, rfl⟩, by simp [hrevoked], by simp [hrevoked]⟩
  · rw [heq]
    rw [hkept.remembered] at hseen
    exact ⟨rfl, by simp [hlive], fun _ _ => ⟨rfl, rfl⟩, fun _ h => absurd hseen h⟩
  · rw [heq]
    rw [hkept.remembered] at hopen
    exact ⟨rfl, by simp [hlive], fun _ h => absurd h hopen, fun _ _ => ⟨outcome, rfl, rfl⟩⟩

theorem Kept.fanOut
    (call : DispatchCall) (sends : Sends) (channels : List NotificationChannel)
    (hkept : Kept initial sends)
    (hallowed : call.preview.confidentiality = .restricted →
      ∀ channel ∈ channels, channel.confidentiality = .restricted) :
    Kept initial (fanOut send call sends channels).1 := by
  induction channels generalizing sends with
  | nil => exact hkept
  | cons channel rest ih =>
      have hfirst := hkept.deliver send call sends channel
        fun h => hallowed h channel List.mem_cons_self
      exact ih _ hfirst fun h c hc => hallowed h c (List.mem_cons_of_mem _ hc)

theorem fanOut_append
    (call : DispatchCall) (sends : Sends) (front back : List NotificationChannel) :
    fanOut send call sends (front ++ back) =
      ((fanOut send call (fanOut send call sends front).1 back).1,
        (fanOut send call sends front).2 ++
          (fanOut send call (fanOut send call sends front).1 back).2) := by
  induction front generalizing sends with
  | nil => rfl
  | cons channel rest ih =>
      simp only [List.cons_append, fanOut, ih]

@[simp] theorem fanOut_length
    (call : DispatchCall) (sends : Sends) (channels : List NotificationChannel) :
    (fanOut send call sends channels).2.length = channels.length := by
  induction channels generalizing sends with
  | nil => rfl
  | cons channel rest ih => simp [fanOut, ih]

theorem fanOut_names
    (call : DispatchCall) (sends : Sends) (channels : List NotificationChannel) :
    (fanOut send call sends channels).2.map ChannelDelivery.channelId =
      channels.map NotificationChannel.id := by
  induction channels generalizing sends with
  | nil => rfl
  | cons channel rest ih =>
      have hname : (deliver send call sends channel).2.channelId = channel.id := by
        rcases deliver_cases send call sends channel with
          ⟨-, heq⟩ | ⟨-, -, heq⟩ | ⟨-, -, outcome, errorKind, heq⟩ <;>
          rw [heq]
      simp only [fanOut, List.map_cons, hname, ih]

/-- The channel at a place has its turn after those before it, whatever became of them. -/
theorem fanOut_turn
    (call : DispatchCall) (sends : Sends) (front back : List NotificationChannel)
    (channel : NotificationChannel)
    (hkept : Kept initial sends)
    (hallowed : call.preview.confidentiality = .restricted →
      ∀ channel ∈ front, channel.confidentiality = .restricted) :
    ∃ delivery,
      (fanOut send call sends (front ++ channel :: back)).2[front.length]? = some delivery ∧
      Turn initial call (fanOut send call sends front).1
        (fanOut send call sends (front ++ [channel])).1 channel delivery := by
  have hfront := hkept.fanOut send call sends front hallowed
  refine ⟨(deliver send call (fanOut send call sends front).1 channel).2, ?_, ?_⟩
  · rw [fanOut_append]
    have hlength := fanOut_length send call sends front
    simp [hlength, fanOut]
  · rw [fanOut_append]
    exact deliver_turn send call _ channel hfront

/-- The gate before the loop. -/
def Refused (call : DispatchCall) : Prop :=
  call.preview.confidentiality = .restricted ∧
    ∃ channel ∈ call.channels, channel.confidentiality ≠ .restricted

theorem dispatch_of_refused
    (call : DispatchCall) (sends : Sends) (hrefused : Refused call) :
    dispatchNotifications send call sends = (sends, .error .restrictedContentRefused) :=
  if_pos hrefused

theorem dispatch_of_allowed
    (call : DispatchCall) (sends : Sends) (hallowed : ¬ Refused call) :
    dispatchNotifications send call sends =
      ((fanOut send call sends call.channels).1,
        .ok ⟨(fanOut send call sends call.channels).2⟩) :=
  if_neg hallowed

theorem restricted_of_allowed
    {call : DispatchCall} (hallowed : ¬ Refused call)
    (hrestricted : call.preview.confidentiality = .restricted)
    (channel : NotificationChannel) (hchannel : channel ∈ call.channels) :
    channel.confidentiality = .restricted := by
  by_contra hordinary
  exact hallowed ⟨hrestricted, channel, hchannel, hordinary⟩

theorem Kept.dispatch
    (call : DispatchCall) (sends : Sends) (hkept : Kept initial sends) :
    Kept initial (dispatchNotifications send call sends).1 := by
  by_cases hrefused : Refused call
  · rw [dispatch_of_refused send call sends hrefused]
    exact hkept
  · rw [dispatch_of_allowed send call sends hrefused]
    exact hkept.fanOut send call sends call.channels
      fun h channel hc => restricted_of_allowed hrefused h channel hc

theorem Kept.dispatchAll
    (calls : List DispatchCall) (sends : Sends) (hkept : Kept initial sends) :
    Kept initial (dispatchAll send sends calls) := by
  induction calls generalizing sends with
  | nil => exact hkept
  | cons call rest ih => exact ih _ (hkept.dispatch send call sends)

end Steps

/-- The deliveries of a call are those of its channels, each after the turns before it. -/
theorem deliveries_of_channels
    {initial : Finset (String × String)}
    (call : DispatchCall) (sends : Sends) (hkept : Kept initial sends)
    (hallowed : ¬ Refused call) :
    (fanOut send call sends call.channels).2.map ChannelDelivery.channelId =
        call.channels.map NotificationChannel.id ∧
      ∀ front channel back, call.channels = front ++ channel :: back →
        ∃ delivery,
          (fanOut send call sends call.channels).2[front.length]? = some delivery ∧
          Turn initial call (fanOut send call sends front).1
            (fanOut send call sends (front ++ [channel])).1 channel delivery := by
  refine ⟨fanOut_names send call sends call.channels, ?_⟩
  intro front channel back hchannels
  rw [hchannels]
  refine fanOut_turn send call sends front back channel hkept fun h c hc => ?_
  exact restricted_of_allowed hallowed h c (by simp [hchannels, hc])

/-- At every call of a run on one set, whatever the sends do: over the whole run a key and a
channel have one success at most and nothing after it, and nothing for a pair the set had
at the start; what is sent is aimed at channels that may have it; a refused call sends
nothing; and any other call gives every channel its turn and its delivery, in order. -/
theorem notifications_sent_at_most_once
    (initial : Finset (String × String)) (earlier later : List DispatchCall)
    (call : DispatchCall) :
    let was := dispatchAll send ⟨initial, []⟩ earlier
    let now := dispatchNotifications send call was
    let run := dispatchAll send ⟨initial, []⟩ (earlier ++ call :: later)
    (NoneAfterSuccess run.attempts ∧
      (∀ slot, (successes slot run.attempts).length ≤ 1) ∧
      (∀ attempt ∈ run.attempts, Aimed initial attempt)) ∧
    (Refused call → now = (was, .error .restrictedContentRefused)) ∧
    (¬ Refused call →
      now.1 = (fanOut send call was call.channels).1 ∧
      ∃ deliveries, now.2 = .ok ⟨deliveries⟩ ∧
        deliveries.map ChannelDelivery.channelId =
          call.channels.map NotificationChannel.id ∧
        ∀ front channel back, call.channels = front ++ channel :: back →
          ∃ delivery, deliveries[front.length]? = some delivery ∧
            Turn initial call (fanOut send call was front).1
              (fanOut send call was (front ++ [channel])).1 channel delivery) := by
  intro was now run
  have hwas : Kept initial was := Kept.start.dispatchAll send earlier _
  have hrun : Kept initial run := Kept.start.dispatchAll send (earlier ++ call :: later) _
  refine ⟨⟨hrun.once, ?_, ?_⟩, ?_, ?_⟩
  · intro slot
    exact hrun.once.successes_length_le slot run.attempts
  · intro attempt hattempt
    exact hrun.aimed attempt hattempt
  · intro hrefused
    exact dispatch_of_refused send call was hrefused
  · intro hallowed
    have hnow : now = _ := dispatch_of_allowed send call was hallowed
    obtain ⟨hnames, hturns⟩ := deliveries_of_channels send call was hwas hallowed
    rw [hnow]
    exact ⟨rfl, _, rfl, hnames, hturns⟩

end Dispatch

end Notifications
end PrReviewer
