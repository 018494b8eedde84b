import PrReviewer.Lib.Dict
import PrReviewer.Lib.Tickets
import PrReviewer.Hosted.PairingSafety

/-!
# Signing in with GitHub

control_plane/github_oauth.py with the routes of control_plane/oauth_api.py and
control_plane/approval_api.py.  A sign-in draws a state and a binding secret; the callback that
brings both redeems the state, asks GitHub who the user is and what it lists for the user, may
approve the pairing code the state was drawn for, and hands out the live assertion as a cookie.
The approval route takes such a cookie.

A callback is a process of its own: between two of its transactions or calls to GitHub anything
else may happen, and it may raise.  An HMAC is taken as unforgeable: a cookie that the key did not
seal is no assertion.  The second `time` that a server reads is an argument, for the servers do not
share the clock of the database.
-/

namespace PrReviewer
namespace Hosted

open Lib

/-- `ALLOWED_RETURN_TO_PATHS`. -/
def allowedReturnToPaths : List String :=
  ["/dashboard", "/dashboard/reviews"]

/-- `STATE_TTL_SECONDS`. -/
def stateTtlSeconds : Int := 600

/-- `interval '10 minutes'` of `complete_sign_in`. -/
def stateLifetime : Nat := 10 * 60 * 1000000

/-- What `oauth_states` keeps with a state and `complete_sign_in` hands back. -/
structure SignInRequest where
  returnTo : String
  pairingCodeHash : Option String
deriving DecidableEq, Repr

structure SignInChallenge where
  state : String
  bindingSecret : String
  expiresAt : Nat
deriving DecidableEq, Repr

/-- GitHub's answers about a user: the installations, each with its repositories. -/
abbrev Listing := List (Int × List (Int × String))

/-- How far `callback_route` has come with a state it redeemed. -/
inductive CallbackPhase where
  | completing (request : SignInRequest)
  | capturing (request : SignInRequest) (githubUserId : Int)
  | deciding (request : SignInRequest) (assertion : SignInAssertion)
  | answering (assertion : SignInAssertion)
deriving DecidableEq, Repr

/-- The hosted store with the states of sign-ins, the callbacks that are running, and the
assertions that were sealed. -/
structure SignInState where
  pairing : PairingState
  oauthStates : Tickets String String SignInRequest
  callbacks : String → Option CallbackPhase
  issued : List SignInAssertion

def SignInState.empty : SignInState where
  pairing := .empty
  oauthStates := .empty
  callbacks := fun _ => none
  issued := []

/-- The callback of the state goes on, or is over. -/
def SignInState.setCallback
    (s : SignInState) (stateHash : String) (phase : Option CallbackPhase) : SignInState :=
  { s with callbacks := Function.update s.callbacks stateHash phase }

@[simp] theorem SignInState.callbacks_setCallback_self
    (s : SignInState) (stateHash : String) (phase : Option CallbackPhase) :
    (s.setCallback stateHash phase).callbacks stateHash = phase :=
  Function.update_self ..

theorem SignInState.callbacks_setCallback_of_ne
    {stateHash k : String}
    (h : k ≠ stateHash)
    (s : SignInState) (phase : Option CallbackPhase) :
    (s.setCallback stateHash phase).callbacks k = s.callbacks k :=
  Function.update_of_ne h ..

/-- `{entry["id"]: … for entry in entries}`. -/
def dictOfEntries {β : Type} (entries : List (Int × β)) : List (Int × β) :=
  entries.foldl (fun items entry => dictSet items entry.1 entry.2) []

/-- `capture_live_assertion`, with what GitHub lists for the user. -/
def captureLiveAssertion (githubUserId : Int) (listing : Listing) (time : Int) :
    SignInAssertion where
  installations := dictOfEntries (listing.map (fun entry => (entry.1, dictOfEntries entry.2)))
  githubUserId := githubUserId
  expiresAt := time + stateTtlSeconds

/-- The access `_auto_approve_waiting_pairing` decides with: to the only installation there is. -/
def soleAccess (assertion : SignInAssertion) (time : Int) : Option VerifiedInstallationAccess :=
  match assertion.installations with
  | [(installationId, _)] => verifyInstallationAccess (some assertion) time installationId
  | _ => none

/-- `_auto_approve_waiting_pairing`. -/
def autoApproveWaitingPairing
    (s : PairingState)
    (pairingCodeHash : String)
    (assertion : SignInAssertion)
    (time : Int)
    (draw : Nat → Uuid) :
    Except HostedError (Option ApprovalOutcome × PairingState) :=
  match soleAccess assertion time with
  | none => .ok (none, s)
  | some access =>
      (approvePairingByHash s pairingCodeHash access (access.repositories.map Prod.fst) draw).map
        (fun answer => (some answer.1, answer.2))

section SignIn

variable (hashRunnerCredential : String → String)

/-- `pairing_code_hash` of `begin_sign_in_route`: an empty code is none. -/
def pairingCodeHashOf : Option String → Option String
  | none => none
  | some code => if code = "" then none else some (hashRunnerCredential code)

/-- `begin_sign_in`; `state` and `bindingSecret` are drawn for it. -/
def beginSignIn
    (s : SignInState)
    (returnTo : String)
    (pairingCodeHash : Option String)
    (state bindingSecret : String) :
    Except HostedError (Option SignInChallenge × SignInState) :=
  if returnTo ∉ allowedReturnToPaths then
    .ok (none, s)
  else
    match
        issue s.oauthStates (hashRunnerCredential state) (hashRunnerCredential bindingSecret)
          { returnTo := returnTo, pairingCodeHash := pairingCodeHash } s.pairing.hosted.now with
    | none => .error .uniqueViolation
    | some oauthStates =>
        .ok (some
            { state := state
              bindingSecret := bindingSecret
              expiresAt := s.pairing.hosted.now + stateLifetime },
          { s with oauthStates := oauthStates })

/-- The transaction of `complete_sign_in`; the callback then asks GitHub. -/
def completeSignIn
    (s : SignInState)
    (state bindingSecret : String) :
    Option (SignInRequest × SignInState) :=
  match
      redeem stateLifetime s.oauthStates (hashRunnerCredential state)
        (hashRunnerCredential bindingSecret) s.pairing.hosted.now with
  | none => none
  | some (request, oauthStates) =>
      some (request,
        SignInState.setCallback { s with oauthStates := oauthStates } (hashRunnerCredential state)
          (some (.completing request)))

/-- `approve_pairing_route`, with the assertion its cookie seals, which `read_live_sign_in` reads
at the second `readAt`. -/
def approvePairingRoute
    (s : SignInState)
    (cookie : SignInAssertion)
    (readAt time : Int)
    (code : String)
    (installationId : Int)
    (repositoryIds : List Int)
    (draw : Nat → Uuid) :
    Except HostedError (Option ApprovalOutcome × PairingState) :=
  if cookie ∈ s.issued ∧ readAt < cookie.expiresAt then
    submitPairingApproval hashRunnerCredential s.pairing (some cookie) time code installationId
      repositoryIds draw
  else
    .ok (none, s.pairing)

end SignIn

/-! ## The machine -/

/-- The call that only a callback and the approval route make. -/
def PairingAction.ofApproval : PairingAction → Bool
  | .approvePairingByHash .. => true
  | _ => false

/-- One transaction or one answer of GitHub; `elsewhere` is the rest of the control plane. -/
inductive SignInAction where
  | beginSignIn (returnTo : String) (pairingCode : Option String) (state bindingSecret : String)
  | completeSignIn (state bindingSecret : String)
  | userVerified (stateHash : String) (githubUserId : Int)
  | captureLiveAssertion (stateHash : String) (listing : Listing) (time : Int)
  | autoApprove (stateHash : String) (time : Int) (draw : Nat → Uuid)
  | issueLiveSignIn (stateHash : String)
  | raises (stateHash : String)
  | approvePairing
      (cookie : SignInAssertion) (readAt time : Int) (code : String) (installationId : Int)
      (repositoryIds : List Int) (draw : Nat → Uuid)
  | elsewhere (a : PairingAction) (h : a.ofApproval = false)

section Machine

variable (hashRunnerCredential : String → String)

def signInStep (s : SignInState) : SignInAction → SignInState
  | .beginSignIn returnTo pairingCode state bindingSecret =>
      match
          beginSignIn hashRunnerCredential s returnTo
            (pairingCodeHashOf hashRunnerCredential pairingCode) state bindingSecret with
      | .ok (_, s') => s'
      | .error _ => s
  | .completeSignIn state bindingSecret =>
      match completeSignIn hashRunnerCredential s state bindingSecret with
      | none => s
      | some (_, s') => s'
  | .userVerified stateHash githubUserId =>
      match s.callbacks stateHash with
      | some (.completing request) =>
          s.setCallback stateHash (some (.capturing request githubUserId))
      | _ => s
  | .captureLiveAssertion stateHash listing time =>
      match s.callbacks stateHash with
      | some (.capturing request githubUserId) =>
          s.setCallback stateHash
            (some (.deciding request (captureLiveAssertion githubUserId listing time)))
      | _ => s
  | .autoApprove stateHash time draw =>
      match s.callbacks stateHash with
      | some (.deciding request assertion) =>
          match request.pairingCodeHash with
          | none => s.setCallback stateHash (some (.answering assertion))
          | some pairingCodeHash =>
              match autoApproveWaitingPairing s.pairing pairingCodeHash assertion time draw with
              | .error _ => s.setCallback stateHash none
              | .ok (_, pairing) =>
                  SignInState.setCallback { s with pairing := pairing } stateHash
                    (some (.answering assertion))
      | _ => s
  | .issueLiveSignIn stateHash =>
      match s.callbacks stateHash with
      | some (.answering assertion) =>
          SignInState.setCallback { s with issued := assertion :: s.issued } stateHash none
      | _ => s
  | .raises stateHash => s.setCallback stateHash none
  | .approvePairing cookie readAt time code installationId repositoryIds draw =>
      { s with
        pairing := s.pairing.commit
          (approvePairingRoute hashRunnerCredential s cookie readAt time code installationId
            repositoryIds draw) }
  | .elsewhere a _ => { s with pairing := pairingStep hashRunnerCredential s.pairing a }

end Machine

/-! ## Histories -/

/-- What GitHub listed for a user, once, in the callback of a state. -/
structure Capture where
  stateHash : String
  githubUserId : Int
  listing : Listing
  time : Int
deriving DecidableEq, Repr

/-- The assertion captured. -/
def Capture.assertion (c : Capture) : SignInAssertion :=
  captureLiveAssertion c.githubUserId c.listing c.time

/-- An approval, the assertion it rests on, and the callback that gave it by itself. -/
structure Grant where
  codeHash : String
  access : VerifiedInstallationAccess
  assertion : SignInAssertion
  time : Int
  callback : Option String
deriving DecidableEq, Repr

/-- What happened so far, the newest first. -/
structure SignInHistory where
  tickets : List (TicketEvent String String SignInRequest)
  captures : List Capture
  grants : List Grant
  pairing : List PairingEvent

def SignInHistory.empty : SignInHistory where
  tickets := []
  captures := []
  grants := []
  pairing := []

section History

variable (hashRunnerCredential : String → String)

/-- The history after `approve_pairing_by_hash`; the grant is noted when it was approved. -/
def noteApproval
    (h : SignInHistory) (s : PairingState) (grant : Grant) (repositoryIds : List Int)
    (draw : Nat → Uuid) :
    SignInHistory :=
  let a : PairingAction := .approvePairingByHash grant.codeHash grant.access repositoryIds draw
  { h with
    grants := ((pairingEvent hashRunnerCredential s a).map (fun _ => grant)).toList ++ h.grants
    pairing := noteEvent hashRunnerCredential h.pairing s a }

def noteSignIn (h : SignInHistory) (s : SignInState) : SignInAction → SignInHistory
  | .beginSignIn returnTo pairingCode state bindingSecret =>
      let request : SignInRequest :=
        { returnTo := returnTo
          pairingCodeHash := pairingCodeHashOf hashRunnerCredential pairingCode }
      match
          beginSignIn hashRunnerCredential s returnTo request.pairingCodeHash state
            bindingSecret with
      | .ok (some _, _) =>
          { h with
            tickets :=
              .issued (hashRunnerCredential state) (hashRunnerCredential bindingSecret) request
                s.pairing.hosted.now :: h.tickets }
      | _ => h
  | .completeSignIn state bindingSecret =>
      match completeSignIn hashRunnerCredential s state bindingSecret with
      | none => h
      | some (request, _) =>
          { h with
            tickets :=
              .redeemed (hashRunnerCredential state) (hashRunnerCredential bindingSecret) request
                s.pairing.hosted.now :: h.tickets }
  | .captureLiveAssertion stateHash listing time =>
      match s.callbacks stateHash with
      | some (.capturing _ githubUserId) =>
          { h with
            captures :=
              { stateHash := stateHash
                githubUserId := githubUserId
                listing := listing
                time := time } :: h.captures }
      | _ => h
  | .autoApprove stateHash time draw =>
      match s.callbacks stateHash with
      | some (.deciding request assertion) =>
          match request.pairingCodeHash, soleAccess assertion time with
          | some pairingCodeHash, some access =>
              noteApproval hashRunnerCredential h s.pairing
                { codeHash := pairingCodeHash
                  access := access
                  assertion := assertion
                  time := time
                  callback := some stateHash }
                (access.repositories.map Prod.fst) draw
          | _, _ => h
      | _ => h
  | .approvePairing cookie readAt time code installationId repositoryIds draw =>
      if cookie ∈ s.issued ∧ readAt < cookie.expiresAt then
        match verifyInstallationAccess (some cookie) time installationId with
        | none => h
        | some access =>
            noteApproval hashRunnerCredential h s.pairing
              { codeHash := hashRunnerCredential code
                access := access
                assertion := cookie
                time := time
                callback := none }
              repositoryIds draw
      else
        h
  | .elsewhere a _ => { h with pairing := noteEvent hashRunnerCredential h.pairing s.pairing a }
  | .userVerified _ _ => h
  | .issueLiveSignIn _ => h
  | .raises _ => h

end History

end Hosted
end PrReviewer
