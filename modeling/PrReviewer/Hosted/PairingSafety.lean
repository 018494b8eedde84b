import PrReviewer.Hosted.Pairing

/-!
# Safety of the pairing protocol

A code is created, approved and exchanged, each at most once and in this order, in any
interleaving with revocations, registrations and the clock.  The history of a run keeps
the creations, approvals and exchanges that were accepted; the invariant ties every
event to the row of its code, and every assignment to the exchange it comes from and to
the approval before it.
-/

namespace PrReviewer
namespace Hosted

open Lib

/-- A creation, an approval or an exchange that was accepted. -/
inductive PairingEvent where
  | created (codeHash challenge : String) (moment : Nat)
  | approved
      (codeHash : String) (access : VerifiedInstallationAccess) (repositoryIds : List Uuid)
  | exchanged (codeHash proofHash : String) (runnerId : Uuid) (moment : Nat)
deriving DecidableEq, Repr

namespace PairingEvent

def codeHash : PairingEvent → String
  | .created codeHash _ _ => codeHash
  | .approved codeHash _ _ => codeHash
  | .exchanged codeHash _ _ _ => codeHash

def createdCode? : PairingEvent → Option String
  | .created codeHash _ _ => some codeHash
  | _ => none

def approvedCode? : PairingEvent → Option String
  | .approved codeHash _ _ => some codeHash
  | _ => none

def exchangedCode? : PairingEvent → Option String
  | .exchanged codeHash _ _ _ => some codeHash
  | _ => none

def runner? : PairingEvent → Option Uuid
  | .exchanged _ _ runnerId _ => some runnerId
  | _ => none

/-- What the row of the code says after the event. -/
def Marks : PairingEvent → PairingCodeRow → Prop
  | .created _ _ _, _ => True
  | .approved _ _ _, row => row.approval ≠ none
  | .exchanged _ _ _ _, row => row.exchangedAt ≠ none

end PairingEvent

section History

variable (hashRunnerCredential : String → String)

/-- The event of a step. -/
def pairingEvent (s : PairingState) : PairingAction → Option PairingEvent
  | .createPairingCode deviceName challenge code =>
      match createPairingCode hashRunnerCredential s deviceName challenge code with
      | .ok _ => some (.created (hashRunnerCredential code) challenge s.hosted.now)
      | .error _ => none
  | .approvePairingByHash codeHash access repositoryIds draw =>
      match approvePairingByHash s codeHash access repositoryIds draw with
      | .ok (.approved _ ids, _) => some (.approved codeHash access ids)
      | _ => none
  | .exchangePairingCode code proof drawnId credential =>
      match exchangePairingCode hashRunnerCredential s code proof drawnId credential with
      | .ok (.credential runnerId _, _) =>
          some (.exchanged (hashRunnerCredential code) (hashRunnerCredential proof) runnerId
            s.hosted.now)
      | _ => none
  | .elsewhere _ _ => none

/-- The events of a run, newest first. -/
def noteEvent
    (events : List PairingEvent) (s : PairingState) (a : PairingAction) :
    List PairingEvent :=
  (pairingEvent hashRunnerCredential s a).toList ++ events

/-- The call answers `PairingDenied` or `AssignmentRefused`. -/
def refuses (s : PairingState) : PairingAction → Bool
  | .approvePairingByHash codeHash access repositoryIds draw =>
      match approvePairingByHash s codeHash access repositoryIds draw with
      | .ok (.denied _, _) => true
      | _ => false
  | .exchangePairingCode code proof drawnId credential =>
      match exchangePairingCode hashRunnerCredential s code proof drawnId credential with
      | .ok (.denied _, _) => true
      | .ok (.refused _ _, _) => true
      | _ => false
  | _ => false

end History

/-- The repository is one of the installation, and GitHub named it to the approver. -/
def Covered (s : HostedState) (access : VerifiedInstallationAccess) (id : Uuid) : Prop :=
  ∃ row, s.repositories.find? id = some row ∧ row.installationId = access.installationId ∧
    (access.repositories.lookup row.githubRepositoryId).isSome = true

/-- What holds of a state with the events that led to it. -/
structure PairingSafe (x : PairingState × List PairingEvent) : Prop where
  one_creation : (x.2.filterMap PairingEvent.createdCode?).Nodup
  one_approval : (x.2.filterMap PairingEvent.approvedCode?).Nodup
  one_runner : (x.2.filterMap PairingEvent.exchangedCode?).Nodup
  one_code : (x.2.filterMap PairingEvent.runner?).Nodup
  lawful_exchange : ∀ later earlier codeHash proofHash runnerId moment,
    x.2 = later ++ .exchanged codeHash proofHash runnerId moment :: earlier →
      (∃ created, .created codeHash proofHash created ∈ earlier ∧ created ≤ moment ∧
        moment < created + pairingLifetime) ∧
      ∃ access ids, .approved codeHash access ids ∈ earlier
  assigned : ∀ a ∈ x.1.hosted.repositoryAssignments.rows,
    ∃ codeHash proofHash moment access ids,
      .exchanged codeHash proofHash a.runnerId moment ∈ x.2 ∧
      .approved codeHash access ids ∈ x.2 ∧ a.repositoryId ∈ ids ∧
      Covered x.1.hosted access a.repositoryId
  one_assignment : ∀ a ∈ x.1.hosted.repositoryAssignments.rows,
    ∀ b ∈ x.1.hosted.repositoryAssignments.rows, a.repositoryId = b.repositoryId → a = b
  revoked : ∀ runner ∈ x.1.hosted.runners.rows, runner.revokedAt.isSome = true →
    ∀ a ∈ x.1.hosted.repositoryAssignments.rows, a.runnerId ≠ runner.id

/-- Every event has its mark on the row of its code, and every row its events. -/
structure Recorded (x : PairingState × List PairingEvent) : Prop where
  codes : ∀ e ∈ x.2, ∃ row, x.1.pairingCodes.find? e.codeHash = some row ∧ e.Marks row
  rows : ∀ codeHash row, x.1.pairingCodes.find? codeHash = some row →
    .created codeHash row.challenge row.createdAt ∈ x.2 ∧ row.createdAt ≤ x.1.hosted.now
  approvals : ∀ codeHash row approval, x.1.pairingCodes.find? codeHash = some row →
    row.approval = some approval →
      ∃ access, .approved codeHash access approval.repositoryIds ∈ x.2 ∧
        ∀ id ∈ approval.repositoryIds, Covered x.1.hosted access id
  runners : ∀ runnerId ∈ x.2.filterMap PairingEvent.runner?,
    x.1.hosted.runners.find? runnerId ≠ none

/-! ## The steps -/

/-- What a step does, and the event it leaves. -/
inductive PairingChange
    (hashRunnerCredential : String → String)
    (s : PairingState) :
    PairingAction → PairingState → Option PairingEvent → Prop
  | unchanged
      {a : PairingAction} :
      PairingChange hashRunnerCredential s a s none
  | created
      {deviceName challenge code : String} {pairingCodes : Table PairingCodeRow.codeHash}
      (hinsert : s.pairingCodes.insert?
        (createdCode deviceName (hashRunnerCredential code) challenge s.hosted.now) =
          some pairingCodes) :
      PairingChange hashRunnerCredential s (.createPairingCode deviceName challenge code)
        { s with pairingCodes := pairingCodes }
        (some (.created (hashRunnerCredential code) challenge s.hosted.now))
  | approved
      {codeHash : String} {access : VerifiedInstallationAccess} {repositoryIds : List Int}
      {draw : Nat → Uuid} {s' : PairingState} {ids : List Uuid}
      (h : Approves s s' codeHash access repositoryIds ids) :
      PairingChange hashRunnerCredential s
        (.approvePairingByHash codeHash access repositoryIds draw) s'
        (some (.approved codeHash access ids))
  | exchanged
      {code proof : String} {drawnId : Uuid} {credential : String} {s' : PairingState}
      {row : PairingCodeRow} {approval : PairingApproval}
      (h : Exchanges hashRunnerCredential s s' code proof drawnId credential row approval) :
      PairingChange hashRunnerCredential s
        (.exchangePairingCode code proof drawnId credential) s'
        (some (.exchanged (hashRunnerCredential code) (hashRunnerCredential proof) drawnId
          s.hosted.now))
  | elsewhere
      {a : HostedAction} {h : a.ofExchange = false} {hosted : HostedState}
      (hchange : PolicyChange hashRunnerCredential s.hosted a hosted)
      (hnow : s.hosted.now ≤ hosted.now)
      (hinstalled : ∀ i, s.hosted.installations.find? i ≠ none →
        hosted.installations.find? i ≠ none) :
      PairingChange hashRunnerCredential s (.elsewhere a h) { s with hosted := hosted } none

section Steps

variable {hashRunnerCredential : String → String}

variable (hashRunnerCredential) in
/-- **Inversion of the pairing machine.** -/
theorem pairingStep_change
    (s : PairingState) (a : PairingAction) :
    PairingChange hashRunnerCredential s a (pairingStep hashRunnerCredential s a)
      (pairingEvent hashRunnerCredential s a) := by
  cases a with
  | createPairingCode deviceName challenge code =>
      unfold pairingStep pairingEvent
      rcases createPairingCode_cases hashRunnerCredential s deviceName challenge code with
        ⟨e, he⟩ | ⟨pairingCodes, hinsert, hok⟩
      · simp only [he]
        exact .unchanged
      · simp only [hok]
        exact .created hinsert
  | approvePairingByHash codeHash access repositoryIds draw =>
      unfold pairingStep pairingEvent
      rcases approvePairingByHash_cases s codeHash access repositoryIds draw with
        ⟨reason, hdenied⟩ | ⟨e, he⟩ | ⟨ids, s', hok, happroves⟩
      · simp only [hdenied]
        exact .unchanged
      · simp only [he]
        exact .unchanged
      · simp only [hok]
        exact .approved happroves
  | exchangePairingCode code proof drawnId credential =>
      unfold pairingStep pairingEvent
      rcases exchangePairingCode_cases hashRunnerCredential s code proof drawnId credential with
        hdenied | ⟨e, he⟩ | ⟨id, holder, hrefused⟩ | ⟨row, approval, s', hok, hexchanges⟩
      · simp only [hdenied]
        exact .unchanged
      · simp only [he]
        exact .unchanged
      · simp only [hrefused]
        exact .unchanged
      · simp only [hok]
        exact .exchanged hexchanges
  | elsewhere a h =>
      exact .elsewhere (step_policyChange hashRunnerCredential s.hosted h)
        (step_now_le hashRunnerCredential s.hosted a)
        (fun _ hi => step_installation_known a hi)

/-- A call that denies or refuses leaves every table as it was. -/
theorem pairingStep_of_refuses
    {s : PairingState} {a : PairingAction}
    (h : refuses hashRunnerCredential s a = true) :
    pairingStep hashRunnerCredential s a = s := by
  cases a with
  | createPairingCode deviceName challenge code => cases h
  | approvePairingByHash codeHash access repositoryIds draw =>
      simp only [refuses] at h
      simp only [pairingStep]
      rcases approvePairingByHash_cases s codeHash access repositoryIds draw with
        ⟨reason, hdenied⟩ | ⟨e, he⟩ | ⟨ids, s', hok, _⟩
      · rw [hdenied]
        rfl
      · rw [he]
        rfl
      · simp only [hok] at h
        cases h
  | exchangePairingCode code proof drawnId credential =>
      simp only [refuses] at h
      simp only [pairingStep]
      rcases exchangePairingCode_cases hashRunnerCredential s code proof drawnId credential with
        hdenied | ⟨e, he⟩ | ⟨id, holder, hrefused⟩ | ⟨row, approval, s', hok, _⟩
      · rw [hdenied]
        rfl
      · rw [he]
        rfl
      · rw [hrefused]
        rfl
      · simp only [hok] at h
        cases h
  | elsewhere a hexchange => cases h

end Steps

/-! ## Frames -/

section Frames

variable {hashRunnerCredential : String → String} {s s' : HostedState} {a : HostedAction}

theorem Covered.kept
    {access : VerifiedInstallationAccess} {id : Uuid}
    (h : Covered s access id)
    (hkept : RepositoriesKept s s') :
    Covered s' access id := by
  obtain ⟨row, hrow, hinstallation, hnamed⟩ := h
  obtain ⟨name, hrow'⟩ := hkept.row id row hrow
  exact ⟨_, hrow', hinstallation, hnamed⟩

theorem PolicyChange.kept
    (h : PolicyChange hashRunnerCredential s a s') :
    RepositoriesKept s s' := by
  cases h with
  | quiet hkept hrunners hassignments => exact hkept
  | revoked => exact .of_same rfl
  | rotated hrow hcurrent hactive => exact .of_same rfl

/-- A runner, once registered, stays. -/
theorem PolicyChange.runner_known
    {runnerId : Uuid}
    (h : PolicyChange hashRunnerCredential s a s')
    (hknown : s.runners.find? runnerId ≠ none) :
    s'.runners.find? runnerId ≠ none := by
  cases h with
  | quiet hkept hrunners hassignments =>
      rw [hrunners]
      exact hknown
  | revoked =>
      simp only [revokeRunner, Table.find?_updateWhere]
      rw [Ne, Option.map_eq_none_iff]
      exact hknown
  | rotated hrow hcurrent hactive =>
      simp only [Table.alter, Table.find?_updateWhere]
      rw [Ne, Option.map_eq_none_iff]
      exact hknown

/-- Outside the exchange assignments are only released. -/
theorem PolicyChange.assignment
    {assignment : RepositoryAssignmentRow}
    (h : PolicyChange hashRunnerCredential s a s')
    (hassigned : assignment ∈ s'.repositoryAssignments.rows) :
    assignment ∈ s.repositoryAssignments.rows := by
  cases h with
  | quiet hkept hrunners hassignments =>
      rw [hassignments] at hassigned
      exact hassigned
  | revoked => exact List.mem_of_mem_filter hassigned
  | rotated hrow hcurrent hactive => exact hassigned

/-- Outside the exchange a runner with assignments loses them when it is revoked. -/
theorem PolicyChange.revoked_unassigned
    (h : PolicyChange hashRunnerCredential s a s')
    (hbefore : ∀ runner ∈ s.runners.rows, runner.revokedAt.isSome = true →
      ∀ assignment ∈ s.repositoryAssignments.rows, assignment.runnerId ≠ runner.id) :
    ∀ runner ∈ s'.runners.rows, runner.revokedAt.isSome = true →
      ∀ assignment ∈ s'.repositoryAssignments.rows, assignment.runnerId ≠ runner.id := by
  cases h with
  | quiet hkept hrunners hassignments =>
      rw [hrunners, hassignments]
      exact hbefore
  | @revoked runnerId =>
      intro runner hrunner hrevoked assignment hassignment
      simp only [revokeRunner, Table.rows_updateWhere, List.mem_map] at hrunner
      obtain ⟨old, hold, rfl⟩ := hrunner
      simp only [revokeRunner, Table.deleteWhere, List.mem_filter] at hassignment
      obtain ⟨hassigned, hother⟩ := hassignment
      by_cases hid : old.id = runnerId
      · split
        · rw [hid]
          simpa using hother
        · rw [hid]
          simpa using hother
      · rw [if_neg (by simp [hid])] at hrevoked ⊢
        exact hbefore old hold hrevoked assignment hassigned
  | rotated hrow hcurrent hactive =>
      intro runner hrunner hrevoked assignment hassignment
      simp only at hrunner
      obtain ⟨old, hold, hsame⟩ := Table.of_mem_alter
        (fun runner : RunnerRow => (runner.id, runner.revokedAt)) hrunner (fun _ => rfl)
      obtain ⟨hid, hmoment⟩ := Prod.mk.inj hsame
      rw [← hmoment] at hrevoked
      rw [← hid]
      exact hbefore old hold hrevoked assignment hassignment

end Frames

/-! ## Events and rows -/

section Recorded

variable {hashRunnerCredential : String → String} {s s' : PairingState}
variable {events : List PairingEvent}

theorem recorded_created
    {row : PairingCodeRow} {pairingCodes : Table PairingCodeRow.codeHash}
    (h : Recorded (s, events))
    (hinsert : s.pairingCodes.insert? row = some pairingCodes)
    (happroval : row.approval = none)
    (hcreated : row.createdAt = s.hosted.now) :
    Recorded ({ s with pairingCodes := pairingCodes },
      .created row.codeHash row.challenge s.hosted.now :: events) := by
  have hfree := (Table.insert?_eq_some hinsert).1
  have hfound := Table.find?_insert? hinsert
  refine ⟨?_, ?_, ?_, h.runners⟩
  · intro e he
    rcases List.mem_cons.mp he with rfl | he
    · exact ⟨row, (hfound row.codeHash).trans (if_pos rfl), trivial⟩
    · obtain ⟨old, hold, hmarks⟩ := h.codes e he
      refine ⟨old, ?_, hmarks⟩
      rw [hfound, if_neg ?_]
      · exact hold
      · intro hhash
        rw [hhash, hfree] at hold
        cases hold
  · intro codeHash row' hrow'
    rw [hfound] at hrow'
    split at hrow'
    · next hhash =>
        cases hrow'
        subst hhash
        rw [hcreated]
        exact ⟨List.mem_cons_self, le_rfl⟩
    · obtain ⟨hevent, hnow⟩ := h.rows codeHash row' hrow'
      exact ⟨List.mem_cons_of_mem _ hevent, hnow⟩
  · intro codeHash row' approval hrow' hsome
    rw [hfound] at hrow'
    split at hrow'
    · cases hrow'
      rw [happroval] at hsome
      cases hsome
    · obtain ⟨access, hevent, hcovered⟩ := h.approvals codeHash row' approval hrow' hsome
      exact ⟨access, List.mem_cons_of_mem _ hevent, hcovered⟩

/-- An event that rewrites the row of its code. -/
theorem recorded_altered
    {e₀ : PairingEvent} {f : PairingCodeRow → PairingCodeRow}
    {hf : ∀ row, (f row).codeHash = row.codeHash} {row : PairingCodeRow}
    (h : Recorded (s, events))
    (hrow : s.pairingCodes.find? e₀.codeHash = some row)
    (hcodes : s'.pairingCodes = s.pairingCodes.alter e₀.codeHash f hf)
    (hnow : s.hosted.now ≤ s'.hosted.now)
    (hkept : RepositoriesKept s.hosted s'.hosted)
    (hsame : (f row).challenge = row.challenge ∧ (f row).createdAt = row.createdAt)
    (hmark : e₀.Marks (f row))
    (hmarks : ∀ e : PairingEvent, e.Marks row → e.Marks (f row))
    (happroval : ∀ approval, (f row).approval = some approval →
      row.approval = some approval ∨
        ∃ access, e₀ = .approved row.codeHash access approval.repositoryIds ∧
          ∀ id ∈ approval.repositoryIds, Covered s'.hosted access id)
    (hrunners : ∀ runnerId ∈ (e₀ :: events).filterMap PairingEvent.runner?,
      s'.hosted.runners.find? runnerId ≠ none) :
    Recorded (s', e₀ :: events) := by
  have hfound : ∀ k row', s'.pairingCodes.find? k = some row' →
      (k = e₀.codeHash ∧ row' = f row) ∨ s.pairingCodes.find? k = some row' := by
    intro k row' hrow'
    rw [hcodes, Table.find?_alter] at hrow'
    split at hrow'
    · next hk =>
        rw [hk, hrow] at hrow'
        exact .inl ⟨hk, (Option.some.inj hrow').symm⟩
    · exact .inr hrow'
  have hown : s'.pairingCodes.find? e₀.codeHash = some (f row) := by
    rw [hcodes, Table.find?_alter, if_pos rfl, hrow]
    rfl
  refine ⟨?_, ?_, ?_, hrunners⟩
  · intro e he
    rcases List.mem_cons.mp he with rfl | he
    · exact ⟨f row, hown, hmark⟩
    · obtain ⟨old, hold, hmarksOld⟩ := h.codes e he
      by_cases hk : e.codeHash = e₀.codeHash
      · rw [hk, hrow] at hold
        cases hold
        rw [hk]
        exact ⟨f row, hown, hmarks e hmarksOld⟩
      · refine ⟨old, ?_, hmarksOld⟩
        rw [hcodes, Table.find?_alter, if_neg hk]
        exact hold
  · intro k row' hrow'
    rcases hfound k row' hrow' with ⟨rfl, rfl⟩ | hold
    · obtain ⟨hevent, hmoment⟩ := h.rows _ row hrow
      rw [hsame.1, hsame.2]
      exact ⟨List.mem_cons_of_mem _ hevent, hmoment.trans hnow⟩
    · obtain ⟨hevent, hmoment⟩ := h.rows k row' hold
      exact ⟨List.mem_cons_of_mem _ hevent, hmoment.trans hnow⟩
  · intro k row' approval hrow' hsome
    have hearlier : ∀ k row', s.pairingCodes.find? k = some row' →
        row'.approval = some approval →
          ∃ access, .approved k access approval.repositoryIds ∈ e₀ :: events ∧
            ∀ id ∈ approval.repositoryIds, Covered s'.hosted access id := by
      intro k row' hold hsome
      obtain ⟨access, hevent, hcovered⟩ := h.approvals k row' approval hold hsome
      exact ⟨access, List.mem_cons_of_mem _ hevent, fun id hid => (hcovered id hid).kept hkept⟩
    rcases hfound k row' hrow' with ⟨rfl, rfl⟩ | hold
    · rcases happroval approval hsome with hsome' | ⟨access, he₀, hcovered⟩
      · exact hearlier _ row hrow hsome'
      · rw [Table.key_of_find? hrow] at he₀
        exact ⟨access, List.mem_cons.mpr (.inl he₀.symm), hcovered⟩
    · exact hearlier k row' hold hsome

theorem recorded_approved
    {codeHash : String} {access : VerifiedInstallationAccess} {repositoryIds : List Int}
    {ids : List Uuid}
    (h : Recorded (s, events))
    (happroves : Approves s s' codeHash access repositoryIds ids) :
    Recorded (s', .approved codeHash access ids :: events) := by
  obtain ⟨row, hrow, _, _⟩ := happroves.open_code
  have hnow : s'.hosted.now = s.hosted.now := by rw [happroves.hosted]
  have hrunners : s'.hosted.runners = s.hosted.runners := by rw [happroves.hosted]
  refine recorded_altered h hrow happroves.pairingCodes hnow.ge happroves.kept ⟨rfl, rfl⟩
    (by rintro ⟨⟩) ?_ ?_ ?_
  · intro e he
    cases e with
    | created k challenge moment => trivial
    | approved k access ids => rintro ⟨⟩
    | exchanged k proofHash runnerId moment => exact he
  · intro approval hsome
    cases hsome
    refine .inr ⟨access, ?_, ?_⟩
    · rw [Table.key_of_find? hrow]
    · intro id hid
      have hmem : some id ∈ repositoryIds.map (repositoryIdOf s'.hosted access.installationId) := by
        rw [happroves.numbered]
        exact List.mem_map_of_mem hid
      obtain ⟨n, hn, hnumbered⟩ := List.mem_map.mp hmem
      obtain ⟨found, hfound, rfl⟩ := Option.map_eq_some_iff.mp hnumbered
      obtain ⟨hid', hinstallation, hnumber⟩ := findRepository_eq_some hfound
      refine ⟨found, hid', hinstallation, ?_⟩
      rw [hnumber]
      exact happroves.covered n hn
  · intro runnerId hrunner
    rw [hrunners]
    exact h.runners runnerId hrunner

theorem recorded_exchanged
    {code proof : String} {drawnId : Uuid} {credential : String} {row : PairingCodeRow}
    {approval : PairingApproval}
    (h : Recorded (s, events))
    (hexchanges :
      Exchanges hashRunnerCredential s s' code proof drawnId credential row approval) :
    Recorded (s',
      .exchanged (hashRunnerCredential code) (hashRunnerCredential proof) drawnId
        s.hosted.now :: events) := by
  have hhash := Table.key_of_find? hexchanges.found
  have hnow : s'.hosted.now = s.hosted.now := by rw [hexchanges.hosted]
  have hrepositories : s'.hosted.repositories = s.hosted.repositories := by
    rw [hexchanges.hosted]
  have hcodes := hexchanges.pairingCodes
  rw [hhash] at hcodes
  refine recorded_altered h hexchanges.found hcodes hnow.ge (.of_same hrepositories)
    ⟨rfl, rfl⟩ (by rintro ⟨⟩) ?_ (fun _ hsome => .inl hsome) ?_
  · intro e he
    cases e with
    | created k challenge moment => trivial
    | approved k access ids => exact he
    | exchanged k proofHash runnerId moment => rintro ⟨⟩
  · intro runnerId hrunner
    rw [Table.find?_insert? hexchanges.runners]
    split
    · rintro ⟨⟩
    · next hother =>
        rcases List.mem_cons.mp hrunner with rfl | hold
        · exact absurd rfl hother
        · exact h.runners runnerId hold

/-- The events and the rows agree after every step. -/
theorem recorded_step
    {x : PairingState × List PairingEvent}
    (h : Recorded x) (a : PairingAction) :
    Recorded
      (withHistory (pairingStep hashRunnerCredential) (noteEvent hashRunnerCredential) x a) := by
  have hchange := pairingStep_change hashRunnerCredential x.1 a
  unfold withHistory noteEvent
  generalize pairingStep hashRunnerCredential x.1 a = s' at hchange ⊢
  generalize pairingEvent hashRunnerCredential x.1 a = event at hchange ⊢
  cases hchange with
  | unchanged => exact h
  | created hinsert => exact recorded_created h hinsert rfl rfl
  | approved happroves => exact recorded_approved h happroves
  | exchanged hexchanges => exact recorded_exchanged h hexchanges
  | elsewhere hchange hnow hinstalled =>
      refine ⟨h.codes, ?_, ?_, ?_⟩
      · intro k row hrow
        obtain ⟨hevent, hmoment⟩ := h.rows k row hrow
        exact ⟨hevent, hmoment.trans hnow⟩
      · intro k row approval hrow hsome
        obtain ⟨access, hevent, hcovered⟩ := h.approvals k row approval hrow hsome
        exact ⟨access, hevent, fun id hid => (hcovered id hid).kept hchange.kept⟩
      · intro runnerId hrunner
        exact hchange.runner_known (h.runners runnerId hrunner)

end Recorded

/-! ## Safety -/

section Safety

variable {hashRunnerCredential : String → String} {s s' : PairingState}
variable {events : List PairingEvent}

/-- Of a code with an event there is a row that bears its mark. -/
theorem Recorded.marked
    {codeHash : String} {row : PairingCodeRow} {e : PairingEvent}
    (h : Recorded (s, events))
    (he : e ∈ events)
    (hcode : e.codeHash = codeHash)
    (hrow : s.pairingCodes.find? codeHash = some row) :
    e.Marks row := by
  obtain ⟨found, hfound, hmarks⟩ := h.codes e he
  rw [hcode, hrow] at hfound
  cases hfound
  exact hmarks

/-- The assignment comes from the exchange of a code and from the approval before it. -/
def Granted
    (s : HostedState) (events : List PairingEvent) (a : RepositoryAssignmentRow) : Prop :=
  ∃ codeHash proofHash moment access ids,
    .exchanged codeHash proofHash a.runnerId moment ∈ events ∧
    .approved codeHash access ids ∈ events ∧ a.repositoryId ∈ ids ∧
    Covered s access a.repositoryId

theorem Granted.kept
    {s s' : HostedState} {events' : List PairingEvent} {a : RepositoryAssignmentRow}
    (h : Granted s events a)
    (hkept : RepositoriesKept s s')
    (hevents : events ⊆ events') :
    Granted s' events' a := by
  obtain ⟨codeHash, proofHash, moment, access, ids, hexchanged, happroved, hmem, hcovered⟩ := h
  exact ⟨codeHash, proofHash, moment, access, ids, hevents hexchanged, hevents happroved, hmem,
    hcovered.kept hkept⟩

/-- Earlier events stay where they are when an event is added that is no exchange. -/
theorem lawful_cons
    {e₀ : PairingEvent}
    {P : List PairingEvent → String → String → Uuid → Nat → Prop}
    (hold : ∀ later earlier codeHash proofHash runnerId moment,
      events = later ++ .exchanged codeHash proofHash runnerId moment :: earlier →
        P earlier codeHash proofHash runnerId moment)
    (hnew : ∀ codeHash proofHash runnerId moment,
      e₀ = .exchanged codeHash proofHash runnerId moment →
        P events codeHash proofHash runnerId moment) :
    ∀ later earlier codeHash proofHash runnerId moment,
      e₀ :: events = later ++ .exchanged codeHash proofHash runnerId moment :: earlier →
        P earlier codeHash proofHash runnerId moment := by
  intro later earlier codeHash proofHash runnerId moment hsplit
  cases later with
  | nil =>
      obtain ⟨he₀, rfl⟩ := List.cons.inj hsplit
      exact hnew codeHash proofHash runnerId moment he₀
  | cons first later => exact hold later earlier _ _ _ _ (List.cons.inj hsplit).2

theorem safe_created
    {row : PairingCodeRow} {pairingCodes : Table PairingCodeRow.codeHash}
    (h : PairingSafe (s, events))
    (hrecorded : Recorded (s, events))
    (hinsert : s.pairingCodes.insert? row = some pairingCodes) :
    PairingSafe ({ s with pairingCodes := pairingCodes },
      .created row.codeHash row.challenge s.hosted.now :: events) := by
  have hfree := (Table.insert?_eq_some hinsert).1
  refine ⟨?_, h.one_approval, h.one_runner, h.one_code, ?_, ?_, h.one_assignment, h.revoked⟩
  · refine List.nodup_cons.mpr ⟨?_, h.one_creation⟩
    intro hcreated
    obtain ⟨e, he, hcode⟩ := List.mem_filterMap.mp hcreated
    obtain ⟨found, hfound, _⟩ := hrecorded.codes e he
    cases e with
    | created k challenge moment =>
        cases hcode
        cases hfree.symm.trans hfound
    | approved k access ids => cases hcode
    | exchanged k proofHash runnerId moment => cases hcode
  · exact lawful_cons h.lawful_exchange (by rintro _ _ _ _ ⟨⟩)
  · intro a ha
    have hgranted : Granted s.hosted events a := h.assigned a ha
    exact hgranted.kept (.of_same rfl) (List.subset_cons_self _ _)

theorem safe_approved
    {codeHash : String} {access : VerifiedInstallationAccess} {repositoryIds : List Int}
    {ids : List Uuid}
    (h : PairingSafe (s, events))
    (hrecorded : Recorded (s, events))
    (happroves : Approves s s' codeHash access repositoryIds ids) :
    PairingSafe (s', .approved codeHash access ids :: events) := by
  have hassignments : s'.hosted.repositoryAssignments = s.hosted.repositoryAssignments := by
    rw [happroves.hosted]
  have hrunners : s'.hosted.runners = s.hosted.runners := by rw [happroves.hosted]
  refine ⟨h.one_creation, ?_, h.one_runner, h.one_code, ?_, ?_, ?_, ?_⟩
  · refine List.nodup_cons.mpr ⟨?_, h.one_approval⟩
    intro happroved
    obtain ⟨e, he, hcode⟩ := List.mem_filterMap.mp happroved
    obtain ⟨row, hrow, hopen, _⟩ := happroves.open_code
    cases e with
    | created k challenge moment => cases hcode
    | approved k access ids =>
        cases hcode
        exact hrecorded.marked he rfl hrow hopen
    | exchanged k proofHash runnerId moment => cases hcode
  · exact lawful_cons h.lawful_exchange (by rintro _ _ _ _ ⟨⟩)
  · intro a ha
    rw [hassignments] at ha
    have hgranted : Granted s.hosted events a := h.assigned a ha
    exact hgranted.kept happroves.kept (List.subset_cons_self _ _)
  · intro a ha b hb
    exact s'.hosted.repositoryAssignments.eq_of_key_eq ha hb
  · rw [hassignments, hrunners]
    exact h.revoked

theorem safe_exchanged
    {code proof : String} {drawnId : Uuid} {credential : String} {row : PairingCodeRow}
    {approval : PairingApproval}
    (h : PairingSafe (s, events))
    (hrecorded : Recorded (s, events))
    (hexchanges :
      Exchanges hashRunnerCredential s s' code proof drawnId credential row approval) :
    PairingSafe (s',
      .exchanged (hashRunnerCredential code) (hashRunnerCredential proof) drawnId
        s.hosted.now :: events) := by
  have hrepositories : s'.hosted.repositories = s.hosted.repositories := by
    rw [hexchanges.hosted]
  have hkept : RepositoriesKept s.hosted s'.hosted := .of_same hrepositories
  obtain ⟨hfree, hrunnerRows⟩ := Table.insert?_eq_some hexchanges.runners
  obtain ⟨access, happroved, hcovered⟩ :=
    hrecorded.approvals _ row approval hexchanges.found hexchanges.approved
  refine ⟨h.one_creation, h.one_approval, ?_, ?_, ?_, ?_, ?_, ?_⟩
  · refine List.nodup_cons.mpr ⟨?_, h.one_runner⟩
    intro hexchanged
    obtain ⟨e, he, hcode⟩ := List.mem_filterMap.mp hexchanged
    cases e with
    | created k challenge moment => cases hcode
    | approved k access ids => cases hcode
    | exchanged k proofHash runnerId moment =>
        cases hcode
        exact hrecorded.marked he rfl hexchanges.found hexchanges.unused
  · refine List.nodup_cons.mpr ⟨?_, h.one_code⟩
    intro hknown
    exact hrecorded.runners drawnId hknown hfree
  · refine lawful_cons h.lawful_exchange ?_
    rintro _ _ _ _ ⟨⟩
    obtain ⟨hcreated, hmoment⟩ := hrecorded.rows _ row hexchanges.found
    rw [hexchanges.challenge] at hcreated
    refine ⟨⟨row.createdAt, hcreated, hmoment, ?_⟩, access, approval.repositoryIds, happroved⟩
    simpa [PairingCodeRow.live] using hexchanges.live
  · intro a ha
    rw [hexchanges.assignments] at ha
    rcases List.mem_append.mp ha with hold | hnew
    · have hgranted : Granted s.hosted events a := h.assigned a hold
      exact hgranted.kept hkept (List.subset_cons_self _ _)
    · obtain ⟨id, hid, rfl⟩ := List.mem_map.mp hnew
      exact ⟨_, _, _, access, approval.repositoryIds, List.mem_cons_self,
        List.mem_cons_of_mem _ happroved, hid, (hcovered id hid).kept hkept⟩
  · intro a ha b hb
    exact s'.hosted.repositoryAssignments.eq_of_key_eq ha hb
  · intro runner hrunner hrevoked a ha
    rw [hrunnerRows] at hrunner
    rw [hexchanges.assignments] at ha
    rcases List.mem_append.mp hrunner with holdRunner | hnewRunner
    · rcases List.mem_append.mp ha with hold | hnew
      · exact h.revoked runner holdRunner hrevoked a hold
      · obtain ⟨id, _, rfl⟩ := List.mem_map.mp hnew
        intro hid
        exact Table.find?_eq_none_iff.mp hfree runner holdRunner hid.symm
    · rw [List.mem_singleton] at hnewRunner
      subst hnewRunner
      cases hrevoked

/-- Safety is kept by every step. -/
theorem safe_step
    {x : PairingState × List PairingEvent}
    (h : PairingSafe x) (hrecorded : Recorded x) (a : PairingAction) :
    PairingSafe
      (withHistory (pairingStep hashRunnerCredential) (noteEvent hashRunnerCredential) x a) := by
  have hchange := pairingStep_change hashRunnerCredential x.1 a
  unfold withHistory noteEvent
  generalize pairingStep hashRunnerCredential x.1 a = s' at hchange ⊢
  generalize pairingEvent hashRunnerCredential x.1 a = event at hchange ⊢
  cases hchange with
  | unchanged => exact h
  | created hinsert => exact safe_created h hrecorded hinsert
  | approved happroves => exact safe_approved h hrecorded happroves
  | exchanged hexchanges => exact safe_exchanged h hrecorded hexchanges
  | @elsewhere _ _ hosted hchange hnow hinstalled =>
      refine ⟨h.one_creation, h.one_approval, h.one_runner, h.one_code, h.lawful_exchange, ?_,
        ?_, hchange.revoked_unassigned h.revoked⟩
      · intro a ha
        have hgranted : Granted x.1.hosted x.2 a := h.assigned a (hchange.assignment ha)
        exact hgranted.kept hchange.kept (List.Subset.refl _)
      · intro a ha b hb
        exact hosted.repositoryAssignments.eq_of_key_eq ha hb

end Safety

theorem safe_empty :
    PairingSafe (.empty, []) := by
  refine ⟨List.nodup_nil, List.nodup_nil, List.nodup_nil, List.nodup_nil, ?_, ?_, ?_, ?_⟩
  · intro later earlier _ _ _ _ hsplit
    cases later <;> cases hsplit
  · rintro a ⟨⟩
  · rintro a ⟨⟩
  · rintro runner ⟨⟩

theorem recorded_empty :
    Recorded (.empty, []) := by
  refine ⟨?_, ?_, ?_, ?_⟩
  · rintro e ⟨⟩
  · rintro k row ⟨⟩
  · rintro k row approval ⟨⟩
  · rintro runnerId ⟨⟩

/--
Every run of the pairing protocol is safe: a code is created, approved and exchanged at
most once each and in this order, within its lifetime and by the holder of its verifier;
a runner's assignments come from the approval of its code; and a call that denies or
refuses changes nothing.
-/
theorem pairing_runs_safe
    (hashRunnerCredential : String → String) (actions : List PairingAction) :
    Throughout
        (withHistory (pairingStep hashRunnerCredential) (noteEvent hashRunnerCredential))
        PairingSafe (.empty, []) actions ∧
      Along (pairingStep hashRunnerCredential)
        (fun s a => refuses hashRunnerCredential s a = true →
          pairingStep hashRunnerCredential s a = s) .empty actions := by
  constructor
  · exact throughout_of_preserves (I := fun x => PairingSafe x ∧ Recorded x)
      (fun x a h => ⟨safe_step h.1 h.2 a, recorded_step h.2 a⟩) (fun _ h => h.1) actions
      ⟨safe_empty, recorded_empty⟩
  · exact along_of_forall (fun _ _ h => pairingStep_of_refuses h) _ actions

end Hosted
end PrReviewer
