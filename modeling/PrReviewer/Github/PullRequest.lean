import Mathlib.Data.List.Basic
import Mathlib.Tactic
import PrReviewer.Hosted.WebhookPayload
import PrReviewer.Lib.Text

/-!
# The snapshot of a pull request

github/pull_request.py and the omission reasons of contracts/github.py: the files of
a pull request with the patches GitHub sent, and `ensure_complete_diff`, which asks a
fetcher for the patches GitHub left out.

A `str` field with `min_length=1` holds a text UTF-8 can encode; an unconstrained one
any Python string.
-/

namespace PrReviewer
namespace Github

open Lib
open Hosted

/-- Why a changed file has no usable patch. -/
inductive OmissionReason where
  | tokenBudget
  | patchOmittedByGithub
  | patchTruncatedByGithub
  | binary
  | generated
  | ignoredPath
  | fileSizeLimit
  | cloneTimeout
deriving DecidableEq, Repr

def OmissionReason.value : OmissionReason → String
  | .tokenBudget => "token_budget"
  | .patchOmittedByGithub => "patch_omitted_by_github"
  | .patchTruncatedByGithub => "patch_truncated_by_github"
  | .binary => "binary"
  | .generated => "generated"
  | .ignoredPath => "ignored_path"
  | .fileSizeLimit => "file_size_limit"
  | .cloneTimeout => "clone_timeout"

inductive GitHubFileStatus where
  | added
  | modified
  | removed
  | renamed
deriving DecidableEq, Repr

structure PullRequestFile where
  path : String
  status : GitHubFileStatus
  patch : Option PyStr
  previousPath : Option PyStr
  truncated : Bool
  binary : Bool
  omissionReason : Option OmissionReason
  path_ne : path ≠ ""

structure PullRequestSnapshot where
  repoOwner : String
  repoName : String
  number : Nat
  baseSha : String
  headSha : String
  title : PyStr
  body : PyStr
  files : List PullRequestFile
  identity : Option RepositoryIdentity
  draft : Bool
  repoOwner_ne : repoOwner ≠ ""
  repoName_ne : repoName ≠ ""
  number_pos : 0 < number
  baseSha_ne : baseSha ≠ ""
  headSha_ne : headSha ≠ ""

/-- An exception of a fetcher, with `type(error).__name__`. -/
structure FetcherError where
  name : String
deriving DecidableEq, Repr

/-- `recover_patch(identity, path, base_sha=..., head_sha=...)`. -/
abbrev RepositoryFetcher :=
  RepositoryIdentity → String → String → String → Except FetcherError (Option PyStr)

/-- What `_recover_or_omit` returns: `str | OmissionReason | None`. -/
inductive Recovered where
  | patch (text : PyStr)
  | omitted (reason : OmissionReason)
  | nothing
deriving DecidableEq

/-- `_omission_for_fetcher_error`. -/
def omissionForFetcherError (error : FetcherError) : Option OmissionReason :=
  if error.name = "CloneTimeout" then
    some .cloneTimeout
  else if error.name = "CloneSizeLimit" then
    some .fileSizeLimit
  else
    none

/-- `_recover_or_omit`. -/
def recoverOrOmit
    (snapshot : PullRequestSnapshot) (file : PullRequestFile) (fetcher : RepositoryFetcher) :
    Except FetcherError Recovered :=
  match snapshot.identity with
  | none => .ok .nothing
  | some identity =>
      match fetcher identity file.path snapshot.baseSha snapshot.headSha with
      | .ok (some text) => .ok (.patch text)
      | .ok none => .ok .nothing
      | .error error =>
          match omissionForFetcherError error with
          | some reason => .ok (.omitted reason)
          | none => .error error

/-- The truth value of a `str | None`. -/
def hasText : Option PyStr → Bool
  | none => false
  | some text => !text.points.isEmpty

/-- `_complete_file`. -/
def completeFile
    (snapshot : PullRequestSnapshot) (fetcher : RepositoryFetcher) (file : PullRequestFile) :
    Except FetcherError PullRequestFile :=
  if file.binary then
    .ok { file with omissionReason := some .binary, patch := none }
  else if file.truncated then
    .ok { file with omissionReason := some .patchTruncatedByGithub }
  else if hasText file.patch then
    .ok file
  else
    match recoverOrOmit snapshot file fetcher with
    | .error error => .error error
    | .ok .nothing =>
        .ok { file with patch := none, omissionReason := some .patchOmittedByGithub }
    | .ok (.omitted reason) => .ok { file with patch := none, omissionReason := some reason }
    | .ok (.patch text) => .ok { file with patch := some text, omissionReason := none }

/-- `ensure_complete_diff`. -/
def ensureCompleteDiff
    (snapshot : PullRequestSnapshot) (fetcher : RepositoryFetcher) :
    Except FetcherError PullRequestSnapshot := do
  let completed ← snapshot.files.mapM (completeFile snapshot fetcher)
  return { snapshot with files := completed }

/-- What completing a file leaves alone. -/
theorem completeFile_path
    {snapshot : PullRequestSnapshot} {fetcher : RepositoryFetcher}
    {file completed : PullRequestFile}
    (h : completeFile snapshot fetcher file = .ok completed) :
    completed.path = file.path ∧ completed.previousPath = file.previousPath := by
  unfold completeFile at h
  split at h
  · cases h
    exact ⟨rfl, rfl⟩
  · split at h
    · cases h
      exact ⟨rfl, rfl⟩
    · split at h
      · cases h
        exact ⟨rfl, rfl⟩
      · split at h
        · cases h
        · cases h
          exact ⟨rfl, rfl⟩
        · cases h
          exact ⟨rfl, rfl⟩
        · cases h
          exact ⟨rfl, rfl⟩

/-- Where the patch of a completed file without an omission reason comes from. -/
theorem completeFile_patch
    {snapshot : PullRequestSnapshot} {fetcher : RepositoryFetcher}
    {file completed : PullRequestFile}
    (h : completeFile snapshot fetcher file = .ok completed)
    (hreason : completed.omissionReason = none) :
    (hasText file.patch = true ∧ completed = file) ∨
      (hasText file.patch = false ∧ ∃ identity text,
        snapshot.identity = some identity ∧
        fetcher identity file.path snapshot.baseSha snapshot.headSha = .ok (some text) ∧
        file.binary = false ∧ file.truncated = false ∧
        completed = { file with patch := some text, omissionReason := none }) := by
  unfold completeFile at h
  split at h
  · cases h
    cases hreason
  · next hbinary =>
    split at h
    · cases h
      cases hreason
    · next htruncated =>
      split at h
      · next hpatch =>
          cases h
          exact .inl ⟨hpatch, rfl⟩
      · next hpatch =>
          refine .inr ⟨by simpa using hpatch, ?_⟩
          unfold recoverOrOmit at h
          cases hidentity : snapshot.identity with
          | none =>
              rw [hidentity] at h
              cases h
              cases hreason
          | some identity =>
              rw [hidentity] at h
              simp only at h
              cases hfetch : fetcher identity file.path snapshot.baseSha snapshot.headSha with
              | ok found =>
                  rw [hfetch] at h
                  cases found with
                  | none =>
                      cases h
                      cases hreason
                  | some text =>
                      cases h
                      exact ⟨identity, text, rfl, hfetch, by simpa using hbinary,
                        by simpa using htruncated, rfl⟩
              | error error =>
                  rw [hfetch] at h
                  simp only at h
                  cases homission : omissionForFetcherError error with
                  | none =>
                      rw [homission] at h
                      cases h
                  | some reason =>
                      rw [homission] at h
                      cases h
                      cases hreason

end Github
end PrReviewer
