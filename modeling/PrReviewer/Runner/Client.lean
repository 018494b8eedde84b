import PrReviewer.Runner.Wire

/-!
# What `RunnerClient` makes of a response

runner/client.py: each method posts one request and turns the response into a
value or an exception.  `httpx.TransportError` is raised by the post itself and
passes through.
-/

namespace PrReviewer
namespace Runner

/-- The exceptions that reach the daemon. -/
inductive PyError where
  | transportError
  | jobProtocolDenied
  | httpStatusError (statusCode : Nat)
  | valueError
  | recursionError
  | attributeError
  | validationError
  | overflowError
  | programmingError
  | executorError
deriving DecidableEq, Repr

def BodyError.toPyError : BodyError → PyError
  | .valueError => .valueError
  | .recursionError => .recursionError

/-- `response.json()`. -/
def Response.decode (r : Response) : Except PyError Json :=
  match r.json with
  | .ok payload => .ok payload
  | .error e => .error (BodyError.toPyError e)

/-- `_detail_reason`: only a `ValueError` of the body is caught. -/
def detailReason (r : Response) : Except PyError String :=
  match r.json with
  | .error .valueError => .ok ""
  | .error .recursionError => .error .recursionError
  | .ok (.obj fields) =>
      match Json.field? fields "detail" with
      | some (.str detail) => .ok detail
      | _ => .ok ""
  | .ok _ => .ok ""

/-- What `claim` returns. -/
inductive ClaimAnswer where
  | envelope (job : JobEnvelope)
  | noJob
  | denied (reason : RunnerAuthDenialReason)
deriving DecidableEq, Repr

/-- `RunnerClient.claim` after the post. -/
def decodeClaim (codec : Codec) (r : Response) : Except PyError ClaimAnswer :=
  if r.statusCode = 401 then
    match detailReason r with
    | .error e => .error e
    | .ok detail =>
        if detail = "revoked_runner" then .ok (.denied .revokedRunner)
        else .ok (.denied .unknownCredential)
  else
    match Response.decode r with
    | .error e => .error e
    | .ok (.obj fields) =>
        match Json.field? fields "status" with
        | some (.str "no_job") => .ok .noJob
        | _ =>
            if fields.isEmpty then
              .ok .noJob
            else
              match codec.validateEnvelope (.obj fields) with
              | some job => .ok (.envelope job)
              | none => .error .validationError
    | .ok _ => .error .attributeError

/-- `RunnerClient.heartbeat` after the post; an unknown status means the lease is gone. -/
def decodeHeartbeat (r : Response) : Except PyError LeaseState :=
  match Response.decode r with
  | .error e => .error e
  | .ok (.obj fields) =>
      match Json.field? fields "status" with
      | some (.str "active") => .ok .active
      | some (.str "cancelled") => .ok .cancelled
      | _ => .ok .invalidOrExpired
  | .ok _ => .error .attributeError

/-- `raise_for_status`: anything but 2xx raises. -/
def isSuccess (statusCode : Nat) : Bool :=
  200 ≤ statusCode ∧ statusCode ≤ 299

/-- `RunnerClient.acknowledge` after the post. -/
def decodeAcknowledge (r : Response) : Except PyError Unit :=
  if r.statusCode = 409 then
    .error .jobProtocolDenied
  else
    match detailReason r with
    | .error e => .error e
    | .ok detail =>
        if detail = "invalid_or_expired" then
          .error .jobProtocolDenied
        else if isSuccess r.statusCode then
          .ok ()
        else
          .error (.httpStatusError r.statusCode)

/-- A post: `httpx.TransportError` is raised, a response is decoded. -/
def received {α : Type} (decode : Response → Except PyError α) : Outcome → Except PyError α
  | .transportError => .error .transportError
  | .response r => decode r

end Runner
end PrReviewer
