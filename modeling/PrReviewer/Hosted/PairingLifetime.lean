import PrReviewer.Hosted.PairingExchange

/-!
# How long a pairing code lives

`create_pairing_code` announces an `expires_at`, and approval, polling and exchange each
decide for themselves whether a code has expired.  The three queries agree with each
other: a code lives ten minutes.  The announced moment is the moment of creation, so
every later call that still accepts the code contradicts the announcement.
-/

namespace PrReviewer
namespace Hosted

open Lib

section Lifetime

variable (hashRunnerCredential : String → String)

/-- `exchange_pairing_code` answers `PairingDenied`. -/
def exchangeDenied
    (s : PairingState) (code proof : String) (drawnId : Uuid) (credential : String) : Bool :=
  match exchangePairingCode hashRunnerCredential s code proof drawnId credential with
  | .ok (.denied _, _) => true
  | _ => false

/-- `approve_pairing` answers that the code is invalid or expired. -/
def approvalExpired
    (s : PairingState) (code : String) (access : VerifiedInstallationAccess)
    (repositoryIds : List Int) (draw : Nat → Uuid) : Bool :=
  match approvePairing hashRunnerCredential s code access repositoryIds draw with
  | .ok (.denied reason, _) => reason = .invalidOrExpiredCode
  | _ => false

/-- The installation is registered and active. -/
def activeInstallation (s : HostedState) (installationId : Int) : Bool :=
  (s.installations.find? installationId).any (fun row => row.revokedAt.isNone)

/--
The calls treat the code as expired from the announced moment on, and polling says that
it may be exchanged exactly when an exchange is not denied.
-/
structure LifetimeAgrees
    (s : PairingState) (code challenge : String) (expiresAt : Nat) : Prop where
  approval : ∀ row, s.pairingCodes.find? (hashRunnerCredential code) = some row →
    row.approval = none →
      ∀ access repositoryIds draw, activeInstallation s.hosted access.installationId = true →
        (approvalExpired hashRunnerCredential s code access repositoryIds draw = true ↔
          expiresAt ≤ s.hosted.now)
  polling : pairingStatus hashRunnerCredential s code challenge = .invalidOrExpired ↔
    expiresAt ≤ s.hosted.now
  exchange : ∀ row, s.pairingCodes.find? (hashRunnerCredential code) = some row →
    row.approval ≠ none →
      ∀ proof drawnId credential, hashRunnerCredential proof = challenge →
        (exchangeDenied hashRunnerCredential s code proof drawnId credential = true ↔
          expiresAt ≤ s.hosted.now)
  exchangeable : ∀ code proof drawnId credential,
    pairingStatus hashRunnerCredential s code (hashRunnerCredential proof) = .exchangeable ↔
      exchangeDenied hashRunnerCredential s code proof drawnId credential = false

/-- The code has been exchanged, or its ten minutes are over. -/
def codeSpent (s : PairingState) (code : String) : Bool :=
  (s.pairingCodes.find? (hashRunnerCredential code)).any (fun row =>
    row.exchangedAt.isSome || !row.live s.hosted.now)

end Lifetime

section Calls

variable {hashRunnerCredential : String → String} {s : PairingState} {code proof : String}

/-- An exchange is denied exactly when no row meets its `where` clause. -/
theorem exchangeDenied_iff
    (drawnId : Uuid) (credential : String) :
    exchangeDenied hashRunnerCredential s code proof drawnId credential = false ↔
      ∃ row, s.pairingCodes.find? (hashRunnerCredential code) = some row ∧
        row.exchangeable (hashRunnerCredential proof) s.hosted.now = true := by
  unfold exchangeDenied exchangePairingCode
  cases hrow : s.pairingCodes.find? (hashRunnerCredential code) with
  | none => simp
  | some row =>
      by_cases hexchangeable :
          row.exchangeable (hashRunnerCredential proof) s.hosted.now = true
      · simp only [hexchangeable, not_true_eq_false, if_false, Option.some.injEq,
          exists_eq_left', iff_true]
        split
        · next hanswer =>
            split at hanswer
            · cases hanswer
            · split at hanswer <;> cases hanswer
        · rfl
      · simp [hexchangeable]

/-- Polling answers `exchangeable` for the same rows. -/
theorem pairingStatus_exchangeable_iff
    (challenge : String) :
    pairingStatus hashRunnerCredential s code challenge = .exchangeable ↔
      ∃ row, s.pairingCodes.find? (hashRunnerCredential code) = some row ∧
        row.exchangeable challenge s.hosted.now = true := by
  unfold pairingStatus
  cases hrow : s.pairingCodes.find? (hashRunnerCredential code) with
  | none => simp
  | some row =>
      simp only [Option.some.injEq, exists_eq_left', exchangeable_iff]
      by_cases hlive : row.challenge = challenge ∧ row.live s.hosted.now = true
      · rw [if_neg (not_not.mpr hlive)]
        cases hexchanged : row.exchangedAt with
        | some moment => simp
        | none =>
            cases happroval : row.approval with
            | none => simp
            | some approval => simp [hlive.1, hlive.2]
      · rw [if_pos hlive]
        refine ⟨by rintro ⟨⟩, ?_⟩
        rintro ⟨hchallenge, _, _, hlive'⟩
        exact absurd ⟨hchallenge, hlive'⟩ hlive

/-- Polling with the right challenge. -/
theorem pairingStatus_expired_iff
    {row : PairingCodeRow}
    (hrow : s.pairingCodes.find? (hashRunnerCredential code) = some row) :
    pairingStatus hashRunnerCredential s code row.challenge = .invalidOrExpired ↔
      codeSpent hashRunnerCredential s code = true := by
  unfold pairingStatus codeSpent
  rw [hrow]
  simp only [true_and, Option.any_some]
  cases hlive : row.live s.hosted.now with
  | false => simp
  | true =>
      cases hexchanged : row.exchangedAt with
      | some moment => simp
      | none =>
          cases happroval : row.approval with
          | none => simp
          | some approval => simp

/-- Approval of a code that waits for it. -/
theorem approvalExpired_iff
    {row : PairingCodeRow} {access : VerifiedInstallationAccess}
    (repositoryIds : List Int) (draw : Nat → Uuid)
    (hrow : s.pairingCodes.find? (hashRunnerCredential code) = some row)
    (hopen : row.approval = none) :
    approvalExpired hashRunnerCredential s code access repositoryIds draw = true ↔
      row.live s.hosted.now = false := by
  unfold approvalExpired approvePairing approvePairingByHash
  simp only [hrow, hopen]
  cases hlive : row.live s.hosted.now with
  | false => simp
  | true =>
      simp only [and_self, not_true_eq_false, if_false, Bool.true_eq_false, iff_false]
      cases s.hosted.installations.find? access.installationId with
      | none => simp
      | some installation =>
          simp only
          split
          · next hanswer =>
              split at hanswer
              · cases hanswer
                decide
              · split at hanswer
                · cases hanswer
                  decide
                · split at hanswer
                  · cases hanswer
                  · split at hanswer <;> cases hanswer
          · exact Bool.false_ne_true

end Calls

/-! ## Runs -/

/-- A code as it was created, at an earlier moment. -/
structure CreatedAs
    (s : PairingState) (codeHash challenge : String) (createdAt : Nat) : Prop where
  row : ∃ row, s.pairingCodes.find? codeHash = some row ∧ row.challenge = challenge ∧
    row.createdAt = createdAt ∧ (row.exchangedAt ≠ none → row.approval ≠ none)
  past : createdAt ≤ s.hosted.now

section Runs

variable {hashRunnerCredential : String → String} {s : PairingState}

theorem createdAs_step
    {codeHash challenge : String} {createdAt : Nat}
    (h : CreatedAs s codeHash challenge createdAt) (a : PairingAction) :
    CreatedAs (pairingStep hashRunnerCredential s a) codeHash challenge createdAt := by
  obtain ⟨row, hrow, hchallenge, hcreated, happroved⟩ := h.row
  obtain ⟨row', hrow', hchange⟩ := pairingStep_codeChange hrow a
  refine ⟨⟨row', hrow', ?_⟩, h.past.trans (pairingStep_known hashRunnerCredential s a).2⟩
  cases hchange with
  | same => exact ⟨hchallenge, hcreated, happroved⟩
  | approved approval hopen => exact ⟨hchallenge, hcreated, by rintro _ ⟨⟩⟩
  | exchanged happroved' hunused => exact ⟨hchallenge, hcreated, fun _ => happroved'⟩

/-- A created code whose announced expiry is its creation. -/
theorem lifetimeAgrees_iff_spent
    {code challenge : String} {createdAt : Nat}
    (h : CreatedAs s (hashRunnerCredential code) challenge createdAt) :
    LifetimeAgrees hashRunnerCredential s code challenge createdAt ↔
      codeSpent hashRunnerCredential s code = true := by
  obtain ⟨row, hrow, rfl, rfl, happroved⟩ := h.row
  have hspent := pairingStatus_expired_iff hrow
  constructor
  · intro hagrees
    exact hspent.mp (hagrees.polling.mpr h.past)
  · intro hcodeSpent
    have hdead : row.exchangedAt.isSome = true ∨ row.live s.hosted.now = false := by
      simpa [codeSpent, hrow] using hcodeSpent
    refine ⟨?_, ?_, ?_, ?_⟩
    · intro found hfound hopen access repositoryIds draw _
      rw [hrow] at hfound
      cases hfound
      rw [approvalExpired_iff repositoryIds draw hrow hopen]
      refine ⟨fun _ => h.past, fun _ => ?_⟩
      rcases hdead with hexchanged | hlive
      · exact absurd hopen (happroved (Option.isSome_iff_ne_none.mp hexchanged))
      · exact hlive
    · exact ⟨fun _ => h.past, fun _ => hspent.mpr hcodeSpent⟩
    · intro found hfound _ proof drawnId credential _
      refine ⟨fun _ => h.past, fun _ => ?_⟩
      rw [← Bool.not_eq_false, exchangeDenied_iff drawnId credential]
      rintro ⟨found', hfound', hexchangeable⟩
      rw [hrow] at hfound'
      cases hfound'
      obtain ⟨_, _, hunused, hlive⟩ := exchangeable_iff.mp hexchangeable
      rcases hdead with hexchanged | hlive'
      · rw [hunused] at hexchanged
        cases hexchanged
      · rw [hlive] at hlive'
        cases hlive'
    · intro code' proof drawnId credential
      rw [pairingStatus_exchangeable_iff, exchangeDenied_iff]

end Runs

/--
At every moment after `create_pairing_code` the calls treat the code as the announced
expiry says, if and only if the code has been exchanged or its ten minutes are over.
-/
theorem announced_lifetime_agrees_iff
    (hashRunnerCredential : String → String) (s created : PairingState)
    (deviceName challenge code : String) (announced : PairingChallenge)
    (later : List PairingAction)
    (hcreated : createPairingCode hashRunnerCredential s deviceName challenge code =
      .ok (announced, created)) :
    LifetimeAgrees hashRunnerCredential
        (exec (pairingStep hashRunnerCredential) created later) code challenge
        announced.expiresAt ↔
      codeSpent hashRunnerCredential (exec (pairingStep hashRunnerCredential) created later)
        code = true := by
  apply lifetimeAgrees_iff_spent
  refine exec_preserves
    (I := fun s => CreatedAs s (hashRunnerCredential code) challenge announced.expiresAt)
    (fun _ a h => createdAs_step h a) later ?_
  rcases createPairingCode_cases hashRunnerCredential s deviceName challenge code with
    ⟨e, he⟩ | ⟨pairingCodes, hinsert, hok⟩
  · rw [he] at hcreated
    cases hcreated
  · rw [hok] at hcreated
    cases hcreated
    refine ⟨⟨_, (Table.find?_insert? hinsert _).trans (if_pos rfl), rfl, rfl, ?_⟩, le_rfl⟩
    rintro hexchanged
    exact absurd rfl hexchanged

/-- The laptop's code just after its creation. -/
def freshCode : PairingState :=
  exec (pairingStep sampleHash) .empty laptopCode

/-- Ten minutes later no call accepts the code. -/
theorem old_code_agrees :
    LifetimeAgrees sampleHash
      (exec (pairingStep sampleHash) freshCode [.elsewhere (.advanceClock pairingLifetime) rfl])
      "code" (sampleHash "verifier") 0 :=
  (announced_lifetime_agrees_iff sampleHash
    (exec (pairingStep sampleHash) .empty [.elsewhere (.registerInstallation 1 "acme") rfl])
    freshCode "laptop" (sampleHash "verifier") "code" { code := "code", expiresAt := 0 }
    [.elsewhere (.advanceClock pairingLifetime) rfl] rfl).mpr (by decide)

/-- A minute after the announced expiry the code waits for approval, and gets it. -/
theorem announced_expiry_not_enforced :
    let s := exec (pairingStep sampleHash) freshCode
      [.elsewhere (.advanceClock 60000000) rfl]
    (createPairingCode sampleHash
        (exec (pairingStep sampleHash) .empty
          [.elsewhere (.registerInstallation 1 "acme") rfl])
        "laptop" (sampleHash "verifier") "code").map Prod.fst =
      .ok { code := "code", expiresAt := 0 } ∧
    0 ≤ s.hosted.now ∧
    pairingStatus sampleHash s "code" (sampleHash "verifier") = .pending ∧
    (approvePairing sampleHash s "code" sampleAccess [11] (fun _ => webRepositoryId)).map
      Prod.fst = .ok (.approved 1 [webRepositoryId]) ∧
    ¬ LifetimeAgrees sampleHash s "code" (sampleHash "verifier") 0 := by
  refine ⟨by decide, by decide, by decide, by decide, ?_⟩
  intro hagrees
  have hexpired := hagrees.polling.mpr (by decide)
  revert hexpired
  decide

end Hosted
end PrReviewer
