import Mathlib.Algebra.Order.Floor.Ring
import Mathlib.Tactic
import PrReviewer.Lib.Bytes
import PrReviewer.Lib.IntDict
import PrReviewer.Lib.JsonCharacters

/-!
# The sign-in cookie

`issue_live_sign_in` and `read_live_sign_in` of control_plane/github_oauth.py.  A cookie is the
JSON of an assertion in base64, a dot, and the HMAC of what stands before the dot.

That nobody forges an HMAC is said of a cookie: where its second part is the HMAC of its first
part, the first part was issued.  A cookie is encoded before its HMAC is checked, so a character
beyond ASCII in it raises.
-/

namespace PrReviewer
namespace Hosted
namespace LiveSignIn

open Lib

/-- A verified installation map; pydantic admits only texts that can be encoded. -/
structure LiveInstallationAssertion where
  githubUserId : Int
  login : Option PyStr
  installations : IntDict (IntDict PyStr)
  expiresAt : Int
  login_text : ∀ s ∈ login, s.text?.isSome = true
  names_text : ∀ item ∈ installations.val, ∀ repo ∈ item.2.val, repo.2.text?.isSome = true

/-- `LiveInstallationAssertion(…)`. -/
def LiveInstallationAssertion.build (githubUserId : Int) (login : Option PyStr)
    (installations : IntDict (IntDict PyStr)) (expiresAt : Int) :
    Except PyException LiveInstallationAssertion :=
  if h : (∀ s ∈ login, s.text?.isSome = true) ∧
      ∀ item ∈ installations.val, ∀ repo ∈ item.2.val, repo.2.text?.isSome = true then
    .ok ⟨githubUserId, login, installations, expiresAt, h.1, h.2⟩
  else
    .error .validationError

/-- What the cookie rests on: the texts of floats and of `repr`, the Unicode database, the depth
of calls the interpreter admits, and the HMAC of an ASCII text under the key. -/
structure CookieBasis where
  floats : FloatText
  repr : PyJson → PyStr
  tables : UnicodeTables
  frames : Nat
  hexdigest : List CodePoint → List CodePoint
  deep : 3 ≤ frames
  hex : ∀ text, ∀ c ∈ hexdigest text, (0x30 ≤ c.val ∧ c.val ≤ 0x39) ∨ (0x61 ≤ c.val ∧ c.val ≤ 0x66)

def dotPoint : CodePoint := 0x2e

/-- `json.dumps(payload, separators=(",", ":"))`. -/
def cookieStyle : JsonStyle where
  ensureAscii := true
  spaced := false

/-- `_b64encode`. -/
def b64encode (data : List UInt8) : List CodePoint :=
  (urlsafeB64encode data).rdropWhile (fun c => c = padPoint)

/-- `_b64decode`. -/
def b64decode (text : List CodePoint) : Except PyException (List UInt8) :=
  urlsafeB64decode (text ++ padding text.length)

/-- `cookie.rsplit(".", 1)`; there is one part where no dot stands in the cookie. -/
def rsplitDot (cookie : List CodePoint) : Option (List CodePoint × List CodePoint) :=
  if dotPoint ∈ cookie then
    some ((cookie.rdropWhile (fun c => c ≠ dotPoint)).dropLast,
      cookie.rtakeWhile (fun c => c ≠ dotPoint))
  else
    none

def isAscii (text : List CodePoint) : Bool :=
  text.all (fun c => c.val < 128)

/-- What `except (ValueError, KeyError, TypeError, json.JSONDecodeError)` catches; pydantic's
error is a ValueError. -/
def isCaught : PyException → Bool
  | .valueError => true
  | .jsonDecodeError => true
  | .validationError => true
  | .keyError => true
  | .typeError => true
  | .overflowError => false
  | .recursionError => false

section SignIn

variable (basis : CookieBasis)

/-- The repositories of an installation, as JSON. -/
def reposJson (repos : IntDict PyStr) : Except PyException PyJson := do
  let members ← textKeys (fun name => .ok (.str name)) repos.val
  return .dict members

/-- The payload of a cookie. -/
def payloadJson (assertion : LiveInstallationAssertion) : Except PyException PyJson := do
  let installations ← textKeys reposJson assertion.installations.val
  return .dict [(.ofString "github_user_id", .int assertion.githubUserId),
    (.ofString "login", assertion.login.elim .null .str),
    (.ofString "installations", .dict installations),
    (.ofString "expires_at", .int assertion.expiresAt)]

/-- The part of a cookie before the dot. -/
def sealedText (assertion : LiveInstallationAssertion) : Except PyException (List CodePoint) := do
  let payload ← payloadJson assertion
  let text ← jsonDumps cookieStyle basis.floats basis.frames payload
  let bytes ← encodeUtf8 ⟨text⟩
  return b64encode bytes

/-- `issue_live_sign_in`. -/
def issueLiveSignIn (assertion : LiveInstallationAssertion) : Except PyException PyStr := do
  let raw ← sealedText basis assertion
  return ⟨raw ++ dotPoint :: basis.hexdigest raw⟩

/-- The repositories of an installation, read from JSON. -/
def reposFromPayload : PyJson → Except PyException (IntDict PyStr)
  | .dict repos =>
      IntDict.ofItems (fun item => do
        let repoId ← intOf basis.tables (.str item.1)
        let name ← strOf basis.repr item.2
        return (repoId, name)) repos
  | _ => .error .typeError

/-- `_installations_from_payload`. -/
def installationsFromPayload : PyJson → Except PyException (IntDict (IntDict PyStr))
  | .dict raw =>
      IntDict.ofItems (fun item => do
        let repos ← reposFromPayload basis item.2
        let installationId ← intOf basis.tables (.str item.1)
        return (installationId, repos)) raw
  | _ => .error .typeError

/-- The login, which a cookie of before may lack. -/
def loginFromPayload (items : List (PyStr × PyJson)) : Except PyException (Option PyStr) :=
  match getItem? items "login" with
  | none => .ok none
  | some .null => .ok none
  | some value => (strOf basis.repr value).map some

structure SignInPayload where
  expiresAt : Int
  githubUserId : Int
  login : Option PyStr
  installations : IntDict (IntDict PyStr)

/-- The `try` block. -/
def openPayload (raw : List CodePoint) : Except PyException SignInPayload := do
  let bytes ← b64decode raw
  let text ← decodeUtf8 bytes
  let payload ← jsonLoads basis.floats basis.frames text.points
  match payload with
  | .dict items => do
      let expiresAt ← intOf basis.tables (← getItem items "expires_at")
      let githubUserId ← intOf basis.tables (← getItem items "github_user_id")
      let login ← loginFromPayload basis items
      let installations ← installationsFromPayload basis (← getItem items "installations")
      return ⟨expiresAt, githubUserId, login, installations⟩
  | _ => .error .typeError

/-- `read_live_sign_in`, at `now` seconds after the epoch. -/
def readLiveSignIn (now : ℚ≥0) (cookie : PyStr) :
    Except PyException (Option LiveInstallationAssertion) :=
  match rsplitDot cookie.points with
  | none => .ok none
  | some (raw, digest) =>
      if isAscii raw = false then
        .error .valueError
      else if isAscii digest = false then
        .error .typeError
      else if digest ≠ basis.hexdigest raw then
        .ok none
      else
        match openPayload basis raw with
        | .error error => if isCaught error then .ok none else .error error
        | .ok payload =>
            if payload.expiresAt ≤ ⌊(now : ℚ)⌋ then
              .ok none
            else
              (LiveInstallationAssertion.build payload.githubUserId payload.login
                payload.installations payload.expiresAt).map some

/-! ## What is sealed -/

/-- The integers of an assertion have no more digits than `str` admits. -/
structure LiveInstallationAssertion.Countable (assertion : LiveInstallationAssertion) : Prop where
  githubUserId : assertion.githubUserId.natAbs < 10 ^ maxStrDigits
  expiresAt : assertion.expiresAt.natAbs < 10 ^ maxStrDigits
  installations : ∀ item ∈ assertion.installations.val, item.1.natAbs < 10 ^ maxStrDigits ∧
    ∀ repo ∈ item.2.val, repo.1.natAbs < 10 ^ maxStrDigits

variable {basis : CookieBasis} {assertion : LiveInstallationAssertion}

/-- The cookie of an assertion is read as the assertion until it expires. -/
def RoundTrips (basis : CookieBasis) (assertion : LiveInstallationAssertion) : Prop :=
  ∃ cookie, issueLiveSignIn basis assertion = .ok cookie ∧
    ∀ now : ℚ≥0, readLiveSignIn basis now cookie =
      .ok (if (now : ℚ) < assertion.expiresAt then some assertion else none)

end SignIn

/-! ## A cookie -/

end LiveSignIn
end Hosted
end PrReviewer
