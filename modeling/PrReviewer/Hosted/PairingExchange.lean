import PrReviewer.Hosted.RecordChanges

/-!
# What an approved pairing gives

The repositories of an approval are stored as the caller listed them, and the exchange
assigns them one after the other under `unique (repository_id)`.  A repository that is
listed twice is refused to the new runner on account of the new runner itself.  An
approval names its repositories without a foreign key, so that a purge in between leaves
a name that the assignment cannot refer to.  An approved code can be exchanged exactly
when its list has no repetition and its repositories are still stored.
-/

namespace PrReviewer
namespace Hosted

open Lib

/-! ## The assignments of an exchange -/

section Exchange

variable {hashRunnerCredential : String → String}

/-- An assignment of a free repository to a known runner. -/
theorem assignRepositoryToRunner_of_free
    {s : HostedState} {repositoryId runnerId : Uuid}
    (hrepository : s.repositories.find? repositoryId ≠ none)
    (hrunner : s.runners.find? runnerId ≠ none)
    (hfree : s.repositoryAssignments.find? repositoryId = none) :
    ∃ assignments,
      s.repositoryAssignments.insert?
        { repositoryId := repositoryId, runnerId := runnerId } = some assignments ∧
      assignRepositoryToRunner s repositoryId runnerId =
        .ok (.granted repositoryId runnerId,
          { s with repositoryAssignments := assignments }) := by
  unfold assignRepositoryToRunner
  rw [if_neg (not_or.mpr ⟨hrepository, hrunner⟩)]
  cases hinsert : s.repositoryAssignments.insert?
      { repositoryId := repositoryId, runnerId := runnerId } with
  | none =>
      obtain ⟨held, hheld⟩ := Table.insert?_eq_none_iff.mp hinsert
      cases hfree.symm.trans hheld
  | some assignments => exact ⟨assignments, rfl, by simp only [hinsert]⟩

/-- The loop of an exchange meets no refusal when the repositories are free and distinct. -/
theorem assignRepositories_of_free
    {runnerId : Uuid} {ids : List Uuid} {s : HostedState}
    (hrepositories : ∀ id ∈ ids, s.repositories.find? id ≠ none)
    (hrunner : s.runners.find? runnerId ≠ none)
    (hfree : ∀ id ∈ ids, s.repositoryAssignments.find? id = none)
    (hnodup : ids.Nodup) :
    ∃ s', assignRepositories runnerId s ids = .ok (none, s') := by
  induction ids generalizing s with
  | nil => exact ⟨s, rfl⟩
  | cons id rest ih =>
      obtain ⟨hfirst, hrest⟩ := List.nodup_cons.mp hnodup
      obtain ⟨assignments, hinsert, hassign⟩ :=
        assignRepositoryToRunner_of_free (hrepositories id (by simp)) hrunner
          (hfree id (by simp))
      simp only [assignRepositories, hassign]
      refine ih ?_ hrunner ?_ hrest
      · intro id' hid'
        exact hrepositories id' (List.mem_cons_of_mem id hid')
      · intro id' hid'
        have hne : id' ≠ id := fun h => hfirst (h ▸ hid')
        rw [Table.find?_insert? hinsert, if_neg hne]
        exact hfree id' (List.mem_cons_of_mem id hid')

/-- The ids an approval stores repeat exactly when the list it was given does. -/
theorem Approves.nodup_iff
    {s s' : PairingState} {codeHash : String} {access : VerifiedInstallationAccess}
    {repositoryIds : List Int} {ids : List Uuid}
    (h : Approves s s' codeHash access repositoryIds ids) :
    ids.Nodup ↔ repositoryIds.Nodup := by
  have hinjective : ∀ n ∈ repositoryIds, ∀ m ∈ repositoryIds,
      repositoryIdOf s'.hosted access.installationId n =
        repositoryIdOf s'.hosted access.installationId m → n = m := by
    intro n hn m hm hsame
    have hstored : repositoryIdOf s'.hosted access.installationId n ∈ ids.map some := by
      rw [← h.numbered]
      exact List.mem_map_of_mem hn
    obtain ⟨id, _, hid⟩ := List.mem_map.mp hstored
    obtain ⟨row, hrow, hrowId⟩ := Option.map_eq_some_iff.mp hid.symm
    obtain ⟨row', hrow', hrowId'⟩ := Option.map_eq_some_iff.mp (hsame.symm.trans hid.symm)
    obtain ⟨hfound, _, hnumber⟩ := findRepository_eq_some hrow
    obtain ⟨hfound', _, hnumber'⟩ := findRepository_eq_some hrow'
    rw [hrowId] at hfound
    rw [hrowId'] at hfound'
    have hrows : row = row' := Option.some.inj (hfound.symm.trans hfound')
    rw [← hnumber, ← hnumber', hrows]
  rw [← List.nodup_map_iff (Option.some_injective Uuid), ← h.numbered]
  constructor
  · exact List.Nodup.of_map _
  · intro hnodup
    exact (List.nodup_map_iff_inj_on hnodup).mpr hinjective

/-- A code approved for these repositories of an installation that is known. -/
structure ApprovedFor
    (s : PairingState) (codeHash : String) (installationId : Int) (ids : List Uuid) : Prop where
  approved : ∃ row approval, s.pairingCodes.find? codeHash = some row ∧
    row.approval = some approval ∧ approval.installationId = installationId ∧
    approval.repositoryIds = ids
  installed : s.hosted.installations.find? installationId ≠ none

theorem Approves.approvedFor
    {s s' : PairingState} {codeHash : String} {access : VerifiedInstallationAccess}
    {repositoryIds : List Int} {ids : List Uuid}
    (h : Approves s s' codeHash access repositoryIds ids) :
    ApprovedFor s' codeHash access.installationId ids := by
  refine ⟨?_, ?_⟩
  · obtain ⟨row, hrow, _, _⟩ := h.open_code
    have hrow' := Table.find?_alter s.pairingCodes codeHash
      (fun r =>
        { r with
          approval := some
            { githubUserId := access.githubUserId
              installationId := access.installationId
              repositoryIds := ids
              approvedAt := s.hosted.now } })
      (fun _ => rfl) codeHash
    rw [if_pos rfl, hrow, Option.map_some, ← h.pairingCodes] at hrow'
    exact ⟨_, _, hrow', rfl, rfl, rfl⟩
  · rw [h.hosted]
    exact h.installed

/-- What a step can do to the row of a code. -/
inductive CodeChange (now : Nat) (row : PairingCodeRow) : PairingCodeRow → Prop
  | same : CodeChange now row row
  | approved
      (approval : PairingApproval)
      (hopen : row.approval = none) :
      CodeChange now row { row with approval := some approval }
  | exchanged
      (happroved : row.approval ≠ none)
      (hunused : row.exchangedAt = none) :
      CodeChange now row { row with exchangedAt := some now }

/-- A code, once created, stays, and changes only as the protocol says. -/
theorem pairingStep_codeChange
    {s : PairingState} {codeHash : String} {row : PairingCodeRow}
    (hrow : s.pairingCodes.find? codeHash = some row) (a : PairingAction) :
    ∃ row', (pairingStep hashRunnerCredential s a).pairingCodes.find? codeHash = some row' ∧
      CodeChange s.hosted.now row row' := by
  have hchange := pairingStep_change hashRunnerCredential s a
  generalize pairingStep hashRunnerCredential s a = s' at hchange ⊢
  generalize pairingEvent hashRunnerCredential s a = event at hchange
  cases hchange with
  | unchanged => exact ⟨row, hrow, .same⟩
  | created hinsert =>
      refine ⟨row, ?_, .same⟩
      rw [Table.find?_insert? hinsert, if_neg ?_]
      · exact hrow
      · intro hhash
        rw [hhash, (Table.insert?_eq_some hinsert).1] at hrow
        cases hrow
  | approved happroves =>
      rw [happroves.pairingCodes, Table.find?_alter]
      split
      · next hhash =>
          subst hhash
          obtain ⟨found, hfound, hopen, _⟩ := happroves.open_code
          rw [hrow] at hfound
          cases hfound
          rw [hrow]
          exact ⟨_, rfl, .approved _ hopen⟩
      · exact ⟨row, hrow, .same⟩
  | @exchanged code _ _ _ _ found approval hexchanges =>
      rw [hexchanges.pairingCodes, Table.find?_alter]
      split
      · next hhash =>
          rw [hhash, Table.key_of_find? hexchanges.found, hexchanges.found] at hrow
          cases hrow
          have happroved : row.approval ≠ none := by
            rw [hexchanges.approved]
            rintro ⟨⟩
          rw [hhash, Table.key_of_find? hexchanges.found, hexchanges.found]
          exact ⟨_, rfl, .exchanged happroved hexchanges.unused⟩
      · exact ⟨row, hrow, .same⟩
  | elsewhere hchange hnow hinstalled => exact ⟨row, hrow, .same⟩

/-- No pairing step forgets an installation, and the clock does not go back. -/
theorem pairingStep_known
    (hashRunnerCredential : String → String) (s : PairingState) (a : PairingAction) :
    (∀ i, s.hosted.installations.find? i ≠ none →
        (pairingStep hashRunnerCredential s a).hosted.installations.find? i ≠ none) ∧
      s.hosted.now ≤ (pairingStep hashRunnerCredential s a).hosted.now := by
  have hchange := pairingStep_change hashRunnerCredential s a
  generalize pairingStep hashRunnerCredential s a = s' at hchange ⊢
  generalize pairingEvent hashRunnerCredential s a = event at hchange
  cases hchange with
  | unchanged => exact ⟨fun _ h => h, le_rfl⟩
  | created hinsert => exact ⟨fun _ h => h, le_rfl⟩
  | approved happroves =>
      have hinstallations : s'.hosted.installations = s.hosted.installations := by
        rw [happroves.hosted]
      have hnow : s'.hosted.now = s.hosted.now := by rw [happroves.hosted]
      exact ⟨fun _ h => by rw [hinstallations]; exact h, hnow.ge⟩
  | exchanged hexchanges =>
      have hinstallations : s'.hosted.installations = s.hosted.installations := by
        rw [hexchanges.hosted]
      have hnow : s'.hosted.now = s.hosted.now := by rw [hexchanges.hosted]
      exact ⟨fun _ h => by rw [hinstallations]; exact h, hnow.ge⟩
  | elsewhere hchange hnow hinstalled => exact ⟨hinstalled, hnow⟩

/-- The runner of every assignment is registered. -/
def RunnersKnown (s : HostedState) : Prop :=
  ∀ a ∈ s.repositoryAssignments.rows, s.runners.find? a.runnerId ≠ none

theorem pairingStep_runnersKnown
    {s : PairingState}
    (h : RunnersKnown s.hosted) (a : PairingAction) :
    RunnersKnown (pairingStep hashRunnerCredential s a).hosted := by
  have hchange := pairingStep_change hashRunnerCredential s a
  generalize pairingStep hashRunnerCredential s a = s' at hchange ⊢
  generalize pairingEvent hashRunnerCredential s a = event at hchange
  cases hchange with
  | unchanged => exact h
  | created hinsert => exact h
  | approved happroves =>
      rw [happroves.hosted]
      exact h
  | exchanged hexchanges =>
      intro a ha
      rw [Table.find?_insert? hexchanges.runners]
      rw [hexchanges.assignments] at ha
      split
      · rintro ⟨⟩
      · next hne =>
          rcases List.mem_append.mp ha with hold | hnew
          · exact h a hold
          · obtain ⟨id, _, rfl⟩ := List.mem_map.mp hnew
            exact absurd rfl hne
  | elsewhere hchange hnow hinstalled =>
      intro a ha
      exact hchange.runner_known (h a (hchange.assignment ha))

/-! ## The rest of the plane -/

/-- What the steps outside the pairing leave alone; a purge does delete repositories. -/
structure PairingKept (s s' : PairingState) : Prop where
  pairingCodes : s'.pairingCodes = s.pairingCodes
  installations : s'.hosted.installations = s.hosted.installations
  runners : s'.hosted.runners = s.hosted.runners
  repositoryAssignments : s'.hosted.repositoryAssignments = s.hosted.repositoryAssignments

variable (hashRunnerCredential) in
theorem hostedStoreStep_pairingKept
    (s : HostedStore) {a : StoreAction}
    (ha : ∀ call, a ≠ .pairing call) :
    PairingKept s.toPairingState (hostedStoreStep hashRunnerCredential s a).toPairingState := by
  cases a with
  | pairing call => exact absurd rfl (ha call)
  | budget call => exact ⟨rfl, rfl, rfl, rfl⟩
  | recordModelCall drawnId input =>
      simp only [hostedStoreStep]
      cases hok : recordModelCall s.promptVersions s.hosted drawnId input with
      | error e => exact ⟨rfl, rfl, rfl, rfl⟩
      | ok hosted =>
          rw [recordModelCall_frame hok]
          exact ⟨rfl, rfl, rfl, rfl⟩
  | projectReview reviewJobId findings receipts =>
      simp only [hostedStoreStep]
      cases hok : projectReview s.hosted reviewJobId findings receipts with
      | error e => exact ⟨rfl, rfl, rfl, rfl⟩
      | ok hosted =>
          rw [insertProjectedFindings_frame (projectReview_eq_ok hok)]
          exact ⟨rfl, rfl, rfl, rfl⟩
  | recordConnectorRun run =>
      simp only [hostedStoreStep, recordConnectorRun]
      split
      · exact ⟨rfl, rfl, rfl, rfl⟩
      · exact ⟨rfl, rfl, rfl, rfl⟩
  | insertPromptVersion id => exact ⟨rfl, rfl, rfl, rfl⟩
  | purgeHostedRepository i r =>
      simp only [hostedStoreStep, purgeHostedRepository_eq]
      split
      · exact ⟨rfl, rfl, rfl, rfl⟩
      · exact ⟨rfl, rfl, rfl, rfl⟩

/-- A property of the pairing tables that the pairing keeps is kept by the whole plane. -/
theorem hostedStoreStep_keeps
    {I : PairingState → Prop}
    (hpairing : ∀ s call, I s → I (pairingStep hashRunnerCredential s call))
    (hkept : ∀ s s', PairingKept s s' → I s → I s')
    {s : HostedStore}
    (h : I s.toPairingState) (a : StoreAction) :
    I (hostedStoreStep hashRunnerCredential s a).toPairingState := by
  by_cases ha : ∃ call, a = .pairing call
  · obtain ⟨call, rfl⟩ := ha
    exact hpairing s.toPairingState call h
  · refine hkept _ _ (hostedStoreStep_pairingKept hashRunnerCredential s ?_) h
    intro call hcall
    exact ha ⟨call, hcall⟩

/-- An approval is never changed or taken back. -/
theorem approvedFor_step
    {codeHash : String} {installationId : Int} {ids : List Uuid} {s : HostedStore}
    (h : ApprovedFor s.toPairingState codeHash installationId ids) (a : StoreAction) :
    ApprovedFor (hostedStoreStep hashRunnerCredential s a).toPairingState codeHash
      installationId ids := by
  refine hostedStoreStep_keeps (I := fun s => ApprovedFor s codeHash installationId ids)
    ?_ ?_ h a
  · intro s call h
    obtain ⟨row, approval, hrow, happroval, hinstallation, hids⟩ := h.approved
    obtain ⟨row', hrow', hchange⟩ := pairingStep_codeChange hrow call
    refine ⟨⟨row', approval, hrow', ?_, hinstallation, hids⟩,
      (pairingStep_known hashRunnerCredential s call).1 _ h.installed⟩
    cases hchange with
    | same => exact happroval
    | approved approval' hopen =>
        rw [happroval] at hopen
        cases hopen
    | exchanged happroved hunused => exact happroval
  · intro s s' hkept h
    refine ⟨?_, ?_⟩
    · rw [hkept.pairingCodes]
      exact h.approved
    · rw [hkept.installations]
      exact h.installed

theorem runnersKnown_step
    {s : HostedStore}
    (h : RunnersKnown s.hosted) (a : StoreAction) :
    RunnersKnown (hostedStoreStep hashRunnerCredential s a).hosted := by
  refine hostedStoreStep_keeps (I := fun s => RunnersKnown s.hosted)
    (fun s call h => pairingStep_runnersKnown h call) ?_ h a
  intro s s' hkept h
  unfold RunnersKnown
  rw [hkept.repositoryAssignments, hkept.runners]
  exact h

variable (hashRunnerCredential) in
/-- An assignment of a state the plane reaches names a registered runner. -/
theorem runnersKnown_storeAfter
    (actions : List StoreAction) :
    RunnersKnown (storeAfter hashRunnerCredential actions).hosted := by
  refine exec_preserves (I := fun s : HostedStore => RunnersKnown s.hosted)
    (fun _ a h => runnersKnown_step h a) actions ?_
  rintro a ⟨⟩

/-- The exchange returned a credential, and its runner has these repositories and no other. -/
def ExchangeAssigns
    (hashRunnerCredential : String → String) (s : PairingState) (code proof : String)
    (drawnId : Uuid) (credential : String) (ids : List Uuid) : Prop :=
  ∃ s', exchangePairingCode hashRunnerCredential s code proof drawnId credential =
      .ok (.credential drawnId credential, s') ∧
    ∀ id, { repositoryId := id, runnerId := drawnId } ∈ s'.hosted.repositoryAssignments.rows ↔
      id ∈ ids

/-- The database draws an id that is free, and the installation is known. -/
theorem registerRunner_of_free
    (hashRunnerCredential : String → String) {s : HostedState} {drawnId : Uuid}
    {installationId : Int}
    (deviceName credential : String) (capabilities : RunnerCapabilities) (githubUserId : Int)
    (hinstalled : s.installations.find? installationId ≠ none)
    (hdrawn : s.runners.find? drawnId = none) :
    ∃ runners,
      s.runners.insert?
        { id := drawnId
          deviceName := deviceName
          credentialHash := hashRunnerCredential credential
          capabilities := capabilities
          revokedAt := none
          githubUserId := some githubUserId
          installationId := some installationId } = some runners ∧
      registerRunner hashRunnerCredential s drawnId deviceName credential capabilities
        (some githubUserId) (some installationId) =
          .ok (drawnId, { s with runners := runners }) := by
  unfold registerRunner
  rw [if_neg (by simp), if_neg (by simpa using hinstalled)]
  cases hinsert : s.runners.insert?
      { id := drawnId
        deviceName := deviceName
        credentialHash := hashRunnerCredential credential
        capabilities := capabilities
        revokedAt := none
        githubUserId := some githubUserId
        installationId := some installationId } with
  | none =>
      obtain ⟨taken, htaken⟩ := Table.insert?_eq_none_iff.mp hinsert
      cases hdrawn.symm.trans htaken
  | some runners => exact ⟨runners, rfl, by simp only [hinsert]⟩

/-- An exchange of distinct, free repositories for a runner id that is not taken. -/
theorem exchangeAssigns_of_nodup
    {s : PairingState} {code proof : String} {drawnId : Uuid} {installationId : Int}
    {ids : List Uuid} {row : PairingCodeRow}
    (credential : String)
    (happroved : ApprovedFor s (hashRunnerCredential code) installationId ids)
    (hrow : s.pairingCodes.find? (hashRunnerCredential code) = some row)
    (hexchangeable : row.exchangeable (hashRunnerCredential proof) s.hosted.now = true)
    (hfree : ∀ id ∈ ids, s.hosted.repositoryAssignments.find? id = none)
    (hdrawn : s.hosted.runners.find? drawnId = none)
    (hknown : RunnersKnown s.hosted)
    (hnodup : ids.Nodup)
    (hstored : ∀ id ∈ ids, s.hosted.repositories.find? id ≠ none) :
    ExchangeAssigns hashRunnerCredential s code proof drawnId credential ids := by
  obtain ⟨found, approval, hfound, happroval, rfl, rfl⟩ := happroved.approved
  rw [hrow] at hfound
  cases hfound
  obtain ⟨runners, hinsert, hregister⟩ := registerRunner_of_free hashRunnerCredential
    row.deviceName credential initialRunnerCapabilities approval.githubUserId
    happroved.installed hdrawn
  have hrunner : runners.find? drawnId ≠ none := by
    rw [Table.find?_insert? hinsert, if_pos rfl]
    rintro ⟨⟩
  obtain ⟨hosted', hassign⟩ : ∃ hosted', assignRepositories drawnId
      { s.hosted with runners := runners } approval.repositoryIds = .ok (none, hosted') :=
    assignRepositories_of_free hstored hrunner hfree hnodup
  have hok : exchangePairingCode hashRunnerCredential s code proof drawnId credential =
      .ok (.credential drawnId credential,
        { hosted := hosted'
          pairingCodes :=
            s.pairingCodes.alter row.codeHash
              (fun r => { r with exchangedAt := some s.hosted.now }) (fun _ => rfl) }) := by
    unfold exchangePairingCode
    simp only [hrow, hexchangeable, not_true_eq_false, if_false, happroval, Option.map_some,
      Option.getD_some, hregister, hassign]
  refine ⟨_, hok, ?_⟩
  intro id
  rw [(assignRepositories_eq_ok hassign).2, List.mem_append]
  constructor
  · rintro (hold | hnew)
    · exact absurd hdrawn (hknown _ hold)
    · obtain ⟨id', hid', hsame⟩ := List.mem_map.mp hnew
      cases hsame
      exact hid'
  · intro hid
    exact .inr (List.mem_map.mpr ⟨id, hid, rfl⟩)

/-- A credential was returned only for distinct repositories. -/
theorem Exchanges.nodup
    {s s' : PairingState} {code proof : String} {drawnId : Uuid} {credential : String}
    {row : PairingCodeRow} {approval : PairingApproval}
    (h : Exchanges hashRunnerCredential s s' code proof drawnId credential row approval) :
    approval.repositoryIds.Nodup := by
  have hkeys := s'.hosted.repositoryAssignments.nodup
  rw [h.assignments, List.map_append, List.map_map] at hkeys
  have hnew := (List.nodup_append.mp hkeys).2.1
  simpa [Function.comp_def] using hnew

/-- The loop of an exchange meets no refusal only where every repository is stored. -/
theorem stored_of_assignRepositories
    {runnerId : Uuid} {ids : List Uuid} {s s' : HostedState}
    (h : assignRepositories runnerId s ids = .ok (none, s')) :
    ∀ id ∈ ids, s.repositories.find? id ≠ none := by
  induction ids generalizing s with
  | nil =>
      rintro id ⟨⟩
  | cons id rest ih =>
      simp only [assignRepositories] at h
      split at h
      · cases h
      · cases h
      · next hfirst =>
          have hstored : s.repositories.find? id ≠ none := by
            unfold assignRepositoryToRunner at hfirst
            split at hfirst
            · cases hfirst
            · next hknown => exact (not_or.mp hknown).1
          rcases assignRepositoryToRunner_eq_ok hfirst with
            ⟨_, hrefused, _⟩ | ⟨assignments, _, rfl, _⟩
          · cases hrefused
          · intro id' hid'
            rcases List.mem_cons.mp hid' with rfl | hrest
            · exact hstored
            · exact ih h id' hrest

end Exchange

/-- Every one of the repositories is a row of `repositories`. -/
def areStored (s : HostedState) (ids : List Uuid) : Bool :=
  ids.all (fun id => (s.repositories.find? id).isSome)

theorem areStored_iff
    {s : HostedState} {ids : List Uuid} :
    areStored s ids = true ↔ ∀ id ∈ ids, s.repositories.find? id ≠ none := by
  simp [areStored, Option.isSome_iff_ne_none]

/-- An exchange returned a credential only where the repositories are distinct and stored. -/
theorem nodup_and_stored_of_exchangeAssigns
    {hashRunnerCredential : String → String} {s : PairingState} {code proof : String}
    {drawnId : Uuid} {credential : String} {installationId : Int} {ids : List Uuid}
    (happroved : ApprovedFor s (hashRunnerCredential code) installationId ids)
    (h : ExchangeAssigns hashRunnerCredential s code proof drawnId credential ids) :
    ids.Nodup ∧ ∀ id ∈ ids, s.hosted.repositories.find? id ≠ none := by
  obtain ⟨s', hok, _⟩ := h
  obtain ⟨row, approval, hrow, happroval, _, rfl⟩ := happroved.approved
  constructor
  · rcases exchangePairingCode_cases hashRunnerCredential s code proof drawnId credential with
      hdenied | ⟨e, he⟩ | ⟨id, holder, hrefused⟩ | ⟨found, approval', s'', _, hexchanges⟩
    · rw [hdenied] at hok
      cases hok
    · rw [he] at hok
      cases hok
    · rw [hrefused] at hok
      cases hok
    · have hfound := hexchanges.found
      rw [hrow] at hfound
      cases hfound
      have hsame := hexchanges.approved
      rw [happroval] at hsame
      cases hsame
      exact hexchanges.nodup
  · unfold exchangePairingCode at hok
    simp only [hrow, happroval, Option.map_some, Option.getD_some] at hok
    split at hok
    · cases hok
    · split at hok
      · cases hok
      · next hregister =>
          obtain ⟨_, runners, rfl, _⟩ := registerRunner_eq_ok hregister
          split at hok
          · cases hok
          · cases hok
          · next hassign =>
              have hstored := stored_of_assignRepositories hassign
              exact hstored

/--
Along every run of the whole plane: a code that was approved for a list of repositories
and may be exchanged, while none of them is assigned, is exchanged for a runner with
exactly these repositories if and only if the list names no repository twice and none of
its repositories was purged.
-/
theorem approved_pairing_exchanges_iff
    (hashRunnerCredential : String → String)
    (before after : List StoreAction)
    (code proof credential : String) (drawnId : Uuid)
    (access : VerifiedInstallationAccess) (repositoryIds : List Int) (draw : Nat → Uuid)
    (ids : List Uuid) (approved : PairingState) (s : HostedStore) (row : PairingCodeRow)
    (happroval : approvePairingByHash (storeAfter hashRunnerCredential before).toPairingState
      (hashRunnerCredential code) access repositoryIds draw =
        .ok (.approved access.installationId ids, approved))
    (hafter : s = storeAfter hashRunnerCredential
      (before ++ .pairing (.approvePairingByHash (hashRunnerCredential code) access
        repositoryIds draw) :: after))
    (hrow : s.pairingCodes.find? (hashRunnerCredential code) = some row)
    (hexchangeable : row.exchangeable (hashRunnerCredential proof) s.hosted.now = true)
    (hfree : ∀ id ∈ ids, s.hosted.repositoryAssignments.find? id = none)
    (hdrawn : s.hosted.runners.find? drawnId = none) :
    ExchangeAssigns hashRunnerCredential s.toPairingState code proof drawnId credential ids ↔
      repositoryIds.Nodup ∧ areStored s.hosted ids = true := by
  have happroves : Approves (storeAfter hashRunnerCredential before).toPairingState approved
      (hashRunnerCredential code) access repositoryIds ids := by
    rcases approvePairingByHash_cases _ (hashRunnerCredential code) access repositoryIds draw
      with ⟨reason, hdenied⟩ | ⟨e, he⟩ | ⟨ids', s', hok, happroves⟩
    · rw [hdenied] at happroval
      cases happroval
    · rw [he] at happroval
      cases happroval
    · rw [hok] at happroval
      cases happroval
      exact happroves
  have happroved : ApprovedFor s.toPairingState (hashRunnerCredential code)
      access.installationId ids := by
    rw [hafter, storeAfter, exec_append, exec_cons]
    refine exec_preserves
      (I := fun s : HostedStore => ApprovedFor s.toPairingState (hashRunnerCredential code)
        access.installationId ids)
      (fun _ a h => approvedFor_step h a) after ?_
    have hcommitted : (hostedStoreStep hashRunnerCredential
        (storeAfter hashRunnerCredential before)
        (.pairing (.approvePairingByHash (hashRunnerCredential code) access repositoryIds
          draw))).toPairingState = approved := by
      simp only [hostedStoreStep, pairingStep, happroval, PairingState.commit]
    unfold storeAfter at hcommitted
    rw [hcommitted]
    exact happroves.approvedFor
  rw [← happroves.nodup_iff, areStored_iff]
  constructor
  · exact nodup_and_stored_of_exchangeAssigns happroved
  · rintro ⟨hnodup, hstored⟩
    refine exchangeAssigns_of_nodup credential happroved hrow hexchangeable hfree hdrawn ?_
      hnodup hstored
    rw [hafter]
    exact runnersKnown_storeAfter hashRunnerCredential _

/-! ### One code, approved with and without a repetition -/

/-- The sign-in that proves the same access. -/
def sampleSignIn : SignInAssertion where
  installations := [(1, [(11, "acme/web")])]
  githubUserId := 7
  expiresAt := 600

/-- The code approved for the given repositories. -/
def approvedCode (repositoryIds : List Int) : PairingState :=
  exec (pairingStep sampleHash) .empty
    (laptopCode ++
      [.approvePairingByHash (sampleHash "code") sampleAccess repositoryIds
        (fun _ => webRepositoryId)])

/-- The repository approved once, while another one is purged. -/
theorem distinct_repositories_exchanged :
    ExchangeAssigns sampleHash
      (storeAfter sampleHash (laptopCode.map .pairing ++
        [.pairing (.approvePairingByHash (sampleHash "code") sampleAccess [11]
            (fun _ => webRepositoryId)),
          .purgeHostedRepository 1 12])).toPairingState
      "code" "verifier" laptopRunner.runnerId "credential" [webRepositoryId] :=
  (approved_pairing_exchanges_iff sampleHash (laptopCode.map .pairing)
    [.purgeHostedRepository 1 12] "code" "verifier" "credential" laptopRunner.runnerId
    sampleAccess [11] (fun _ => webRepositoryId) [webRepositoryId] (approvedCode [11]) _ _
    rfl rfl rfl (by decide) (by decide) (by decide)).mpr (by decide)

/-- A list that names the repository twice passes the route, and its exchange is refused. -/
theorem repeated_repository_refused :
    (submitPairingApproval sampleHash (exec (pairingStep sampleHash) .empty laptopCode)
        (some sampleSignIn) 0 "code" 1 [11, 11] (fun _ => webRepositoryId)).map Prod.fst =
      .ok (some (.approved 1 [webRepositoryId, webRepositoryId])) ∧
    (approvedCode [11, 11]).pairingCodes.rows.map
        (fun row => row.exchangeable (sampleHash "verifier") (approvedCode [11, 11]).hosted.now) =
      [true] ∧
    (approvedCode [11, 11]).hosted.repositoryAssignments.rows = [] ∧
    (exchangePairingCode sampleHash (approvedCode [11, 11]) "code" "verifier"
        laptopRunner.runnerId "credential").map Prod.fst =
      .ok (.refused webRepositoryId
        { runnerId := laptopRunner.runnerId, deviceName := "laptop" }) := by
  decide

end Hosted
end PrReviewer
