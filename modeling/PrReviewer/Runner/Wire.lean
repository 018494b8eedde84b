import PrReviewer.Contracts

/-!
# What travels between the runner and the control plane

JSON values, the two pydantic models that cross the wire with the values
`model_dump(mode="json")` gives them, and HTTP responses as httpx hands them to
the client.

`model_validate` is pydantic's: `Codec` takes the two validations as given, with
what the code relies on, that a dumped value validates to itself.
-/

namespace PrReviewer

/-- A JSON value as `json.loads` returns it; the keys of an object are distinct. -/
inductive Json where
  | null
  | bool (b : Bool)
  | int (n : Int)
  | float (text : String)
  | str (text : String)
  | arr (items : List Json)
  | obj (fields : List (String × Json))
deriving Repr

/-- `payload.get(key)` of a dict. -/
def Json.field? (fields : List (String × Json)) (key : String) : Option Json :=
  fields.lookup key

/-- An optional text: `null` when it is absent. -/
def Json.ofOption : Option String → Json
  | none => .null
  | some text => .str text

def JobTerminalState.text : JobTerminalState → String
  | .succeeded => "succeeded"
  | .failed => "failed"

/-- `JobAcknowledgement.model_dump(mode="json")`. -/
def JobAcknowledgement.dump (ack : JobAcknowledgement) : Json :=
  .obj
    [("terminal_state", .str ack.terminalState.text),
      ("error_class", .ofOption ack.errorClass),
      ("input_tokens", .int ack.inputTokens),
      ("output_tokens", .int ack.outputTokens),
      ("cost_usd", .str ack.costUsd.text),
      ("latency_ms", .int ack.latencyMs),
      ("local_result_hash", .str ack.localResultHash)]

/-- The body FastAPI writes for a `JobEnvelope`. -/
def JobEnvelope.dump (e : JobEnvelope) : Json :=
  .obj
    [("job_id", .str e.jobId.text),
      ("installation_id", .int e.installationId),
      ("repository_id", .int e.repositoryId),
      ("pull_request_number", .int e.pullRequestNumber),
      ("base_sha", .str e.baseSha),
      ("head_sha", .str e.headSha),
      ("policy_version", .str e.policyVersion),
      ("budget",
        .obj
          [("max_tokens", .int e.budget.maxTokens),
            ("max_cost_usd", .str e.budget.maxCostUsd.text)]),
      ("trace_id", .str e.traceId.text),
      ("lease_token", .str e.leaseToken)]

/-- `JobEnvelope.model_validate` and `JobAcknowledgement.model_validate`. -/
structure Codec where
  validateEnvelope : Json → Option JobEnvelope
  validateAcknowledgement : Json → Option JobAcknowledgement
  envelope_roundtrip : ∀ e, validateEnvelope e.dump = some e
  acknowledgement_roundtrip : ∀ ack, validateAcknowledgement ack.dump = some ack

/-- What `response.json()` raises: a decoding `ValueError`, or `RecursionError`. -/
inductive BodyError where
  | valueError
  | recursionError
deriving DecidableEq, Repr

/-- An HTTP response: its status and what `response.json()` does. -/
structure Response where
  statusCode : Nat
  json : Except BodyError Json

/-- How one request ends: `httpx.TransportError`, or a response. -/
inductive Outcome where
  | transportError
  | response (r : Response)

/-- The requests of `RunnerClient`, with the credential in their header. -/
inductive Request where
  | claim (bearer : String)
  | heartbeat (bearer : String) (jobId : Uuid) (leaseToken : String)
  | acknowledge
      (bearer : String) (jobId : Uuid) (leaseToken : String) (result : JobAcknowledgement)
deriving DecidableEq, Repr

/-! ## A strict codec -/

/-- The canonical text of a uuid. -/
def Uuid.ofCanonical? (text : String) : Option Uuid :=
  if h : isCanonicalUuid text = true then some ⟨text, h⟩ else none

theorem Uuid.ofCanonical?_text
    (u : Uuid) :
    Uuid.ofCanonical? u.text = some u := by
  unfold Uuid.ofCanonical?
  rw [dif_pos u.canonical]

/-- A count: a JSON integer that is not negative. -/
def Json.nat? : Json → Option Nat
  | .int n => if 0 ≤ n then some n.toNat else none
  | _ => none

@[simp] theorem Json.nat?_int
    (n : Nat) :
    Json.nat? (.int n) = some n := by
  simp [Json.nat?]

def Json.optionalText? : Json → Option (Option String)
  | .null => some none
  | .str text => some (some text)
  | _ => none

@[simp] theorem Json.optionalText?_ofOption
    (text : Option String) :
    Json.optionalText? (.ofOption text) = some text := by
  cases text with
  | none => rfl
  | some text => rfl

def JobTerminalState.ofText? : String → Option JobTerminalState
  | "succeeded" => some .succeeded
  | "failed" => some .failed
  | _ => none

@[simp] theorem JobTerminalState.ofText?_text
    (state : JobTerminalState) :
    JobTerminalState.ofText? state.text = some state := by
  cases state with
  | succeeded => rfl
  | failed => rfl

/-- The validation of an acknowledgement that accepts dumped values only. -/
def strictAcknowledgement : Json → Option JobAcknowledgement
  | .obj
      [("terminal_state", .str state), ("error_class", errorClass),
        ("input_tokens", inputTokens), ("output_tokens", outputTokens),
        ("cost_usd", .str costUsd), ("latency_ms", latencyMs),
        ("local_result_hash", .str localResultHash)] => do
      let terminalState ← JobTerminalState.ofText? state
      let errorClass ← errorClass.optionalText?
      let inputTokens ← inputTokens.nat?
      let outputTokens ← outputTokens.nat?
      let latencyMs ← latencyMs.nat?
      if h : localResultHash ≠ "" then
        some
          { terminalState := terminalState
            errorClass := errorClass
            inputTokens := inputTokens
            outputTokens := outputTokens
            costUsd := { text := costUsd }
            latencyMs := latencyMs
            localResultHash := localResultHash
            localResultHash_ne := h }
      else
        none
  | _ => none

/-- The validation of an envelope that accepts dumped values only. -/
def strictEnvelope : Json → Option JobEnvelope
  | .obj
      [("job_id", .str jobId), ("installation_id", .int installationId),
        ("repository_id", .int repositoryId), ("pull_request_number", .int number),
        ("base_sha", .str baseSha), ("head_sha", .str headSha),
        ("policy_version", .str policyVersion),
        ("budget", .obj [("max_tokens", maxTokens), ("max_cost_usd", .str maxCostUsd)]),
        ("trace_id", .str traceId), ("lease_token", .str leaseToken)] => do
      let jobId ← Uuid.ofCanonical? jobId
      let maxTokens ← maxTokens.nat?
      let traceId ← Uuid.ofCanonical? traceId
      if h : 0 < number ∧ baseSha ≠ "" ∧ headSha ≠ "" ∧ policyVersion ≠ "" ∧
          leaseToken ≠ "" then
        some
          { jobId := jobId
            installationId := installationId
            repositoryId := repositoryId
            pullRequestNumber := number
            baseSha := baseSha
            headSha := headSha
            policyVersion := policyVersion
            budget := { maxTokens := maxTokens, maxCostUsd := { text := maxCostUsd } }
            traceId := traceId
            leaseToken := leaseToken
            pullRequestNumber_pos := h.1
            baseSha_ne := h.2.1
            headSha_ne := h.2.2.1
            policyVersion_ne := h.2.2.2.1
            leaseToken_ne := h.2.2.2.2 }
      else
        none
  | _ => none

theorem strictAcknowledgement_dump
    (ack : JobAcknowledgement) :
    strictAcknowledgement ack.dump = some ack := by
  simp only [JobAcknowledgement.dump, strictAcknowledgement, JobTerminalState.ofText?_text,
    Json.optionalText?_ofOption, Json.nat?_int, Option.bind_eq_bind, Option.bind_some]
  rw [dif_pos ack.localResultHash_ne]

theorem strictEnvelope_dump
    (e : JobEnvelope) :
    strictEnvelope e.dump = some e := by
  simp only [JobEnvelope.dump, strictEnvelope, Uuid.ofCanonical?_text, Json.nat?_int,
    Option.bind_eq_bind, Option.bind_some]
  rw [dif_pos ⟨e.pullRequestNumber_pos, e.baseSha_ne, e.headSha_ne, e.policyVersion_ne,
    e.leaseToken_ne⟩]

/-- A codec that accepts exactly the shape of dumped values. -/
def strictCodec : Codec where
  validateEnvelope := strictEnvelope
  validateAcknowledgement := strictAcknowledgement
  envelope_roundtrip := strictEnvelope_dump
  acknowledgement_roundtrip := strictAcknowledgement_dump

end PrReviewer
