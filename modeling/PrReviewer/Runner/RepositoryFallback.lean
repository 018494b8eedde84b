import Mathlib.Data.List.Basic
import Mathlib.Tactic
import PrReviewer.Github.PullRequest

/-!
# The clone a missing patch is recovered from

runner/repository_fallback.py, as far as `recover_patch` reads the clone: the path is
checked, the head is checked out, and what is returned is the text of the whole file.
Git and the file system are parameters.
-/

namespace PrReviewer
namespace Runner

open Lib
open Github
open Hosted

/-- A checked-out work directory, as far as `recover_patch` reads it. -/
structure WorkTree where
  isFile : String → Bool
  size : String → Nat
  /-- `read_text(encoding="utf-8", errors="replace")`. -/
  readText : String → PyStr

/-- Git and the file system: the path check against a work directory, and `materialize`. -/
structure CloneEnvironment where
  staysInside : String → Bool
  /-- `_clone`, `_checkout` and the checks of the tree; the error is what they raise. -/
  checkout : RepositoryIdentity → String → Except FetcherError WorkTree
  /-- The path check against the checked-out tree, in which it may be a symbolic link. -/
  staysInsideTree : WorkTree → String → Bool

/-- `BoundedCloneFetcher`. -/
structure BoundedCloneFetcher where
  sizeLimitBytes : Int
  environment : CloneEnvironment

def minCloneBytes : Int := 2

/-- `assert_path_stays_inside`, given whether the resolved path stays inside. -/
def assertPathStaysInside (inside : Bool) : Except FetcherError Unit :=
  if inside then .ok () else .error ⟨"UnsafeRepositoryPath"⟩

/-- `_assert_size_budget`. -/
def BoundedCloneFetcher.assertSizeBudget (fetcher : BoundedCloneFetcher) :
    Except FetcherError Unit :=
  if fetcher.sizeLimitBytes < minCloneBytes then .error ⟨"CloneSizeLimit"⟩ else .ok ()

/-- `materialize(identity, head_sha, work, [path])`. -/
def BoundedCloneFetcher.materialize (fetcher : BoundedCloneFetcher)
    (identity : RepositoryIdentity) (headSha path : String) :
    Except FetcherError WorkTree := do
  assertPathStaysInside (fetcher.environment.staysInside path)
  fetcher.assertSizeBudget
  let tree ← fetcher.environment.checkout identity headSha
  assertPathStaysInside (fetcher.environment.staysInsideTree tree path)
  return tree

/-- `recover_patch`. -/
def BoundedCloneFetcher.recoverPatch (fetcher : BoundedCloneFetcher) : RepositoryFetcher :=
  fun identity path _baseSha headSha => do
    assertPathStaysInside (fetcher.environment.staysInside path)
    fetcher.assertSizeBudget
    let tree ← fetcher.materialize identity headSha path
    assertPathStaysInside (fetcher.environment.staysInsideTree tree path)
    if tree.isFile path then
      if fetcher.sizeLimitBytes < tree.size path then
        .error ⟨"CloneSizeLimit"⟩
      else
        .ok (some (tree.readText path))
    else
      .ok none

end Runner
end PrReviewer
