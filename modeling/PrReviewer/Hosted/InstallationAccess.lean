import PrReviewer.Hosted.LiveSignIn

/-!
# Verified installation access

`verify_installation_access` and `capture_live_assertion` of control_plane/github_oauth.py: what
GitHub lists for a user, asked for now or captured at the sign-in.

GitHub lists the installations of a user, and the repositories of each, in pages.  Either way only
the first page of a listing is asked for.
-/

namespace PrReviewer
namespace Hosted
namespace InstallationAccess

open Lib

/-! ## GitHub -/

/-- The entries of a listing, page by page. -/
structure Pages (α : Type) where
  first : List α
  later : List (List α)

/-- All entries of a listing. -/
def Pages.all {α : Type} (pages : Pages α) : List α :=
  pages.first ++ pages.later.flatten

/-- A repository as GitHub lists it, among other items with an integer id and a name. -/
structure RepositoryEntry where
  items : List (PyStr × PyJson)
  id : Int
  name : String
  id_item : getItem items "id" = .ok (.int id)
  name_item : getItem items "name" = .ok (.str (.ofString name))

/-- An installation as GitHub lists it, and what it lists of the repositories in it. -/
structure InstallationEntry where
  items : List (PyStr × PyJson)
  id : Int
  repositories : Pages RepositoryEntry
  id_item : getItem items "id" = .ok (.int id)
  distinct : (repositories.all.map RepositoryEntry.id).Nodup

/-- What GitHub lists for a user. -/
structure GitHubAccount where
  installations : Pages InstallationEntry
  distinct : (installations.all.map InstallationEntry.id).Nodup

/-- The two listings, without a page. -/
inductive GitHubUrl where
  | installations
  | repositories (installationId : Int)

inductive AccessError where
  | httpStatusError (status : Nat)
  | attributeError
  | python (error : PyException)
deriving DecidableEq, Repr

/-- A client that raises for a status and reads JSON. -/
abbrev GitHubClient :=
  GitHubUrl → Except AccessError PyJson

/-- GitHub's answers to a user's token: without a page, the first one. -/
def GitHubAccount.client (account : GitHubAccount) : GitHubClient
  | .installations =>
      .ok (.dict [(.ofString "total_count", .int account.installations.all.length),
        (.ofString "installations",
          .list (account.installations.first.map (fun entry => .dict entry.items)))])
  | .repositories installationId =>
      match account.installations.all.find? (fun entry => entry.id = installationId) with
      | none => .error (.httpStatusError 404)
      | some installation =>
          .ok (.dict [(.ofString "total_count", .int installation.repositories.all.length),
            (.ofString "repositories",
              .list (installation.repositories.first.map (fun entry => .dict entry.items)))])

/-! ## Access -/

structure VerifiedGitHubUser where
  githubUserId : Int
  login : String
  login_ne : login ≠ ""

structure VerifiedInstallationAccess where
  githubUserId : Int
  installationId : Int
  repositories : IntDict PyStr
  names_text : ∀ repo ∈ repositories.val, repo.2.text?.isSome = true

/-- The two answers of `verify_installation_access`; a denial has one reason. -/
inductive AccessOutcome where
  | granted (access : VerifiedInstallationAccess)
  | denied

/-- `STATE_TTL_SECONDS`. -/
def stateTtlSeconds : Int := 600

def python {α : Type} (value : Except PyException α) : Except AccessError α :=
  value.mapError AccessError.python

/-- `VerifiedInstallationAccess(…)`. -/
def VerifiedInstallationAccess.build (githubUserId installationId : Int)
    (repositories : IntDict PyStr) : Except AccessError VerifiedInstallationAccess :=
  if h : ∀ repo ∈ repositories.val, repo.2.text?.isSome = true then
    .ok ⟨githubUserId, installationId, repositories, h⟩
  else
    .error (.python .validationError)

/-- `value[key]`. -/
def subscript (key : String) : PyJson → Except PyException PyJson
  | .dict items => getItem items key
  | _ => .error .typeError

/-- `response.json().get(key, [])`, gone through. -/
def entriesOf (key : String) : PyJson → Except AccessError (List PyJson)
  | .dict items =>
      match getItem? items key with
      | none => .ok []
      | some value => python (iterate value)
  | _ => .error .attributeError

section Access

variable (tables : UnicodeTables) (repr : PyJson → PyStr)

/-- `int(entry["id"])`. -/
def idOf (entry : PyJson) : Except AccessError Int := do
  let id ← python (subscript "id" entry)
  python (intOf tables id)

/-- `int(repository["id"]): str(repository["name"])`. -/
def repositoryOf (entry : PyJson) : Except AccessError (Int × PyStr) := do
  let id ← idOf tables entry
  let name ← python (subscript "name" entry)
  let name ← python (strOf repr name)
  return (id, name)

/-- The repositories of an installation, as the user's token lists them. -/
def listedRepositories (client : GitHubClient) (installationId : Int) :
    Except AccessError (IntDict PyStr) := do
  let response ← client (.repositories installationId)
  let entries ← entriesOf "repositories" response
  IntDict.ofItems (repositoryOf tables repr) entries

/-- `capture_live_assertion`. -/
def captureLiveAssertion (user : VerifiedGitHubUser) (client : GitHubClient) (now : ℚ≥0) :
    Except AccessError LiveSignIn.LiveInstallationAssertion := do
  let response ← client .installations
  let entries ← entriesOf "installations" response
  let installations ← IntDict.ofItems (fun entry => do
    let installationId ← idOf tables entry
    let repositories ← listedRepositories tables repr client installationId
    return (installationId, repositories)) entries
  python (LiveSignIn.LiveInstallationAssertion.build user.githubUserId
    (some (.ofString user.login)) installations (⌊(now : ℚ)⌋ + stateTtlSeconds))

/-- `verify_installation_access`, at `now` seconds after the epoch. -/
def verifyInstallationAccess (user : Option VerifiedGitHubUser) (installationId : Int)
    (client : GitHubClient) (assertion : Option LiveSignIn.LiveInstallationAssertion)
    (now : ℚ≥0) : Except AccessError AccessOutcome :=
  match assertion, user with
  | some assertion, _ =>
      if assertion.expiresAt ≤ ⌊(now : ℚ)⌋ then
        .ok .denied
      else
        match assertion.installations.val.lookup installationId with
        | none => .ok .denied
        | some matched =>
            (VerifiedInstallationAccess.build assertion.githubUserId installationId matched).map
              .granted
  | none, some user => do
      let response ← client .installations
      let entries ← entriesOf "installations" response
      let controlledInstallationIds ← entries.mapM (idOf tables)
      if installationId ∉ controlledInstallationIds then
        return .denied
      else do
        let repositories ← listedRepositories tables repr client installationId
        (VerifiedInstallationAccess.build user.githubUserId installationId repositories).map
          .granted
  | none, none => .ok .denied

/-! ## What is read of a listing -/

variable {tables repr} {account : GitHubAccount} {installation : InstallationEntry}

theorem idOf_repository
    (entry : RepositoryEntry) :
    idOf tables (.dict entry.items) = .ok entry.id := by
  rw [idOf, subscript, entry.id_item]
  rfl

theorem idOf_installation
    (entry : InstallationEntry) :
    idOf tables (.dict entry.items) = .ok entry.id := by
  rw [idOf, subscript, entry.id_item]
  rfl

theorem repositoryOf_entry
    (entry : RepositoryEntry) :
    repositoryOf tables repr (.dict entry.items) = .ok (entry.id, .ofString entry.name) := by
  rw [repositoryOf, idOf_repository, ok_bind, subscript, entry.name_item]
  rfl

/-- The names of repositories by their ids. -/
def repositoryNames (entries : List RepositoryEntry)
    (h : (entries.map RepositoryEntry.id).Nodup) : IntDict PyStr :=
  ⟨entries.map (fun entry => (entry.id, .ofString entry.name)), by
    rw [List.map_map]
    exact h⟩

theorem repositoryNames_text
    {entries : List RepositoryEntry} (h : (entries.map RepositoryEntry.id).Nodup) :
    ∀ repo ∈ (repositoryNames entries h).val, repo.2.text?.isSome = true := by
  intro repo hrepo
  obtain ⟨entry, _, rfl⟩ := List.mem_map.mp hrepo
  rw [PyStr.text?_ofString]
  rfl

/-- Access to repositories GitHub lists. -/
def accessTo (githubUserId installationId : Int) (entries : List RepositoryEntry)
    (h : (entries.map RepositoryEntry.id).Nodup) : VerifiedInstallationAccess :=
  ⟨githubUserId, installationId, repositoryNames entries h, repositoryNames_text h⟩

theorem build_accessTo
    (githubUserId installationId : Int) {entries : List RepositoryEntry}
    (h : (entries.map RepositoryEntry.id).Nodup) :
    VerifiedInstallationAccess.build githubUserId installationId (repositoryNames entries h) =
      .ok (accessTo githubUserId installationId entries h) :=
  dif_pos (repositoryNames_text h)

theorem InstallationEntry.distinct_first
    (installation : InstallationEntry) :
    (installation.repositories.first.map RepositoryEntry.id).Nodup := by
  have h := installation.distinct
  rw [Pages.all, List.map_append] at h
  exact (List.nodup_append.mp h).1

theorem GitHubAccount.distinct_first
    (account : GitHubAccount) :
    (account.installations.first.map InstallationEntry.id).Nodup := by
  have h := account.distinct
  rw [Pages.all, List.map_append] at h
  exact (List.nodup_append.mp h).1

/-- An installation is found by its id. -/
theorem find_installation
    {entries : List InstallationEntry} (hdistinct : (entries.map InstallationEntry.id).Nodup)
    (h : installation ∈ entries) :
    entries.find? (fun entry => entry.id = installation.id) = some installation := by
  cases hfound : entries.find? (fun entry => entry.id = installation.id) with
  | none =>
      have hnone := List.find?_eq_none.mp hfound installation h
      simp at hnone
  | some found =>
      have hid : found.id = installation.id := by simpa using List.find?_some hfound
      exact congrArg some
        (List.inj_on_of_nodup_map hdistinct (List.mem_of_find?_eq_some hfound) h hid)

theorem listedRepositories_eq
    (h : installation ∈ account.installations.all) :
    listedRepositories tables repr account.client installation.id =
      .ok (repositoryNames installation.repositories.first installation.distinct_first) := by
  have hentries : entriesOf "repositories"
      (.dict [(.ofString "total_count", .int installation.repositories.all.length),
        (.ofString "repositories",
          .list (installation.repositories.first.map (fun entry => .dict entry.items)))]) =
      .ok (installation.repositories.first.map (fun entry => .dict entry.items)) := rfl
  rw [listedRepositories, GitHubAccount.client, find_installation account.distinct h]
  dsimp only
  rw [ok_bind, hentries, ok_bind]
  exact IntDict.ofItems_eq _ (fun entry _ => repositoryOf_entry entry)

/-- The entries on the first page of the installations. -/
theorem client_installations
    (account : GitHubAccount) :
    ∃ response, account.client .installations = .ok response ∧
      entriesOf "installations" response =
        .ok (account.installations.first.map (fun entry => .dict entry.items)) :=
  ⟨_, rfl, rfl⟩

/-- What is granted of an installation that is found. -/
def outcomeOf (githubUserId installationId : Int)
    (repositories : (installation : InstallationEntry) →
      {entries : List RepositoryEntry // (entries.map RepositoryEntry.id).Nodup}) :
    Option InstallationEntry → AccessOutcome
  | none => .denied
  | some installation =>
      .granted (accessTo githubUserId installationId (repositories installation).val
        (repositories installation).property)

def firstRepositories (installation : InstallationEntry) :
    {entries : List RepositoryEntry // (entries.map RepositoryEntry.id).Nodup} :=
  ⟨installation.repositories.first, installation.distinct_first⟩

def allRepositories (installation : InstallationEntry) :
    {entries : List RepositoryEntry // (entries.map RepositoryEntry.id).Nodup} :=
  ⟨installation.repositories.all, installation.distinct⟩

theorem mem_all_of_find
    {installationId : Int}
    (h : account.installations.first.find? (fun entry => entry.id = installationId) =
      some installation) :
    installation.id = installationId ∧ installation ∈ account.installations.all := by
  refine ⟨by simpa using List.find?_some h, ?_⟩
  exact List.mem_append_left _ (List.mem_of_find?_eq_some h)

/-- Asked for now, the first pages of the two listings are what is granted. -/
theorem verify_live
    (user : VerifiedGitHubUser) (account : GitHubAccount) (installationId : Int) (now : ℚ≥0) :
    verifyInstallationAccess tables repr (some user) installationId account.client none now =
      .ok (outcomeOf user.githubUserId installationId firstRepositories
        (account.installations.first.find? (fun entry => entry.id = installationId))) := by
  obtain ⟨response, hresponse, hentries⟩ := client_installations account
  have hids : (account.installations.first.map (fun entry => PyJson.dict entry.items)).mapM
      (idOf tables) = .ok (account.installations.first.map InstallationEntry.id) := by
    rw [List.mapM_map]
    exact mapM_eq_ok (fun entry _ => idOf_installation entry)
  rw [verifyInstallationAccess, hresponse, ok_bind, hentries, ok_bind, hids, ok_bind]
  cases hfound : account.installations.first.find? (fun entry => entry.id = installationId) with
  | none =>
      have hnone : installationId ∉ account.installations.first.map InstallationEntry.id := by
        intro hmem
        obtain ⟨entry, hentry, hid⟩ := List.mem_map.mp hmem
        have hmiss := List.find?_eq_none.mp hfound entry hentry
        simp [hid] at hmiss
      rw [if_pos hnone]
      rfl
  | some installation =>
      obtain ⟨rfl, hall⟩ := mem_all_of_find hfound
      have hlisted : installation.id ∈ account.installations.first.map InstallationEntry.id :=
        List.mem_map_of_mem (List.mem_of_find?_eq_some hfound)
      rw [if_neg (not_not_intro hlisted), listedRepositories_eq hall, ok_bind, build_accessTo]
      rfl

/-- The dict of a capture, looked into. -/
theorem lookup_installations
    {β : Type} (entries : List InstallationEntry) (value : InstallationEntry → β)
    (installationId : Int) :
    (entries.map (fun entry => (entry.id, value entry))).lookup installationId =
      (entries.find? (fun entry => entry.id = installationId)).map value := by
  induction entries with
  | nil => rfl
  | cons entry entries ih =>
      rw [List.map_cons, lookup_cons_eq, List.find?_cons, ih]
      by_cases hid : entry.id = installationId
      · simp [hid]
      · simp [hid, Ne.symm hid]

/-- Captured at the sign-in, it is the same. -/
theorem verify_captured
    (user : VerifiedGitHubUser) (account : GitHubAccount) (signedIn : ℚ≥0) :
    ∃ assertion, captureLiveAssertion tables repr user account.client signedIn = .ok assertion ∧
      ∀ installationId (now : ℚ≥0), (now : ℚ) < assertion.expiresAt →
        verifyInstallationAccess tables repr (some user) installationId account.client
            (some assertion) now =
          .ok (outcomeOf user.githubUserId installationId firstRepositories
            (account.installations.first.find? (fun entry => entry.id = installationId))) := by
  obtain ⟨response, hresponse, hentries⟩ := client_installations account
  have hnodup : ((account.installations.first.map (fun entry => (entry.id,
      repositoryNames entry.repositories.first entry.distinct_first))).map Prod.fst).Nodup := by
    rw [List.map_map]
    exact account.distinct_first
  have hlogin : ∀ s ∈ some (PyStr.ofString user.login), s.text?.isSome = true := by
    rintro _ ⟨⟩
    rw [PyStr.text?_ofString]
    rfl
  have hnames : ∀ item ∈ account.installations.first.map (fun entry => (entry.id,
      repositoryNames entry.repositories.first entry.distinct_first)),
      ∀ repo ∈ item.2.val, repo.2.text?.isSome = true := by
    intro item hitem
    obtain ⟨entry, _, rfl⟩ := List.mem_map.mp hitem
    exact repositoryNames_text entry.distinct_first
  refine ⟨⟨user.githubUserId, some (.ofString user.login), ⟨_, hnodup⟩,
    ⌊(signedIn : ℚ)⌋ + stateTtlSeconds, hlogin, hnames⟩, ?_, ?_⟩
  · rw [captureLiveAssertion, hresponse, ok_bind, hentries, ok_bind,
      IntDict.ofItems_eq hnodup ?_, ok_bind, LiveSignIn.LiveInstallationAssertion.build,
      dif_pos ⟨hlogin, hnames⟩]
    · rfl
    · intro entry hentry
      rw [idOf_installation, ok_bind, listedRepositories_eq (List.mem_append_left _ hentry)]
      rfl
  · intro installationId now hnow
    rw [verifyInstallationAccess]
    dsimp only
    rw [if_neg (by rw [Int.le_floor]; exact not_le.mpr hnow), lookup_installations]
    cases hfound : account.installations.first.find?
        (fun entry => entry.id = installationId) with
    | none => rfl
    | some installation =>
        rw [Option.map_some]
        dsimp only
        rw [build_accessTo]
        rfl

/-! ## The full listing -/

/-- What GitHub lists of an installation over all pages. -/
def GitHubAccount.access (account : GitHubAccount) (user : VerifiedGitHubUser)
    (installationId : Int) : AccessOutcome :=
  outcomeOf user.githubUserId installationId allRepositories
    (account.installations.all.find? (fun entry => entry.id = installationId))

/-- The access that is verified is what GitHub lists, and the assertion captured at the sign-in
gives it until it expires. -/
structure VerifiesListing (tables : UnicodeTables) (repr : PyJson → PyStr)
    (user : VerifiedGitHubUser) (account : GitHubAccount) (installationId : Int)
    (signedIn : ℚ≥0) : Prop where
  live : ∀ now, verifyInstallationAccess tables repr (some user) installationId account.client
    none now = .ok (account.access user installationId)
  captured : ∃ assertion,
    captureLiveAssertion tables repr user account.client signedIn = .ok assertion ∧
      ∀ now : ℚ≥0, (now : ℚ) < assertion.expiresAt →
        verifyInstallationAccess tables repr (some user) installationId account.client
            (some assertion) now =
          verifyInstallationAccess tables repr (some user) installationId account.client none now

/-- The first page of an installation says all where no other page lists a repository. -/
theorem firstRepositories_eq
    (h : installation.repositories.later.flatten = []) :
    firstRepositories installation = allRepositories installation := by
  refine Subtype.ext ?_
  change installation.repositories.first =
    installation.repositories.first ++ installation.repositories.later.flatten
  rw [h, List.append_nil]

theorem later_eq_nil
    {githubUserId installationId : Int}
    (h : accessTo githubUserId installationId installation.repositories.first
        installation.distinct_first =
      accessTo githubUserId installationId installation.repositories.all installation.distinct) :
    installation.repositories.later.flatten = [] := by
  have hnames := congrArg (fun access => access.repositories.val.length) h
  simp only [accessTo, repositoryNames, List.length_map, Pages.all, List.length_append] at hnames
  exact List.length_eq_zero_iff.mp (by omega)

/-- The access that is verified is what GitHub lists exactly where the installation, if it is
listed, stands on the first page, and no other page lists a repository of it. -/
theorem verified_access_iff
    (tables : UnicodeTables) (repr : PyJson → PyStr) (user : VerifiedGitHubUser)
    (account : GitHubAccount) (installationId : Int) (signedIn : ℚ≥0) :
    VerifiesListing tables repr user account installationId signedIn ↔
      ∀ installation ∈ account.installations.all, installation.id = installationId →
        installation ∈ account.installations.first ∧
          installation.repositories.later.flatten = [] := by
  constructor
  · rintro h installation hall rfl
    have hsame := (verify_live user account installation.id 0).symm.trans (h.live 0)
    rw [GitHubAccount.access, find_installation account.distinct hall] at hsame
    cases hfound : account.installations.first.find?
        (fun entry => entry.id = installation.id) with
    | none =>
        rw [hfound] at hsame
        cases hsame
    | some found =>
        obtain ⟨hid, hmem⟩ := mem_all_of_find hfound
        obtain rfl := List.inj_on_of_nodup_map account.distinct hmem hall hid
        rw [hfound] at hsame
        exact ⟨List.mem_of_find?_eq_some hfound,
          later_eq_nil (AccessOutcome.granted.inj (Except.ok.inj hsame))⟩
  · intro h
    refine ⟨fun now => ?_, ?_⟩
    · rw [verify_live, GitHubAccount.access]
      cases hfound : account.installations.all.find?
          (fun entry => entry.id = installationId) with
      | none =>
          have hnone : account.installations.first.find?
              (fun entry => entry.id = installationId) = none := by
            rw [List.find?_eq_none] at hfound ⊢
            exact fun entry hentry => hfound entry (List.mem_append_left _ hentry)
          rw [hnone]
          rfl
      | some installation =>
          have hid : installation.id = installationId := by simpa using List.find?_some hfound
          obtain ⟨hfirst, hlater⟩ := h installation (List.mem_of_find?_eq_some hfound) hid
          subst hid
          rw [find_installation account.distinct_first hfirst]
          exact congrArg (fun entries : {entries : List RepositoryEntry //
              (entries.map RepositoryEntry.id).Nodup} =>
            Except.ok (AccessOutcome.granted (accessTo user.githubUserId installation.id
              entries.val entries.property))) (firstRepositories_eq hlater)
    · obtain ⟨assertion, hcapture, hverify⟩ := verify_captured user account signedIn
      refine ⟨assertion, hcapture, fun now hnow => ?_⟩
      rw [hverify installationId now hnow, verify_live]

end Access

/-! ## A listing of two pages -/

/-- An installation without repositories. -/
def bareInstallation (id : Int) : InstallationEntry where
  items := [(.ofString "id", .int id)]
  id := id
  repositories := ⟨[], []⟩
  id_item := rfl
  distinct := List.nodup_nil

/-- A user with two installations, each on a page of its own. -/
def pagedAccount : GitHubAccount where
  installations := ⟨[bareInstallation 1], [[bareInstallation 2]]⟩
  distinct := by decide

def ada : VerifiedGitHubUser where
  githubUserId := 7
  login := "ada"
  login_ne := by decide

/-- An installation on the second page is denied. -/
theorem second_page_denied :
    ¬ VerifiesListing bareTables (fun _ => ⟨[]⟩) ada pagedAccount 2 0 := by
  intro h
  have hlive := h.live 0
  cases hlive

end InstallationAccess
end Hosted
end PrReviewer
