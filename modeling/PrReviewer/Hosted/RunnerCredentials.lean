import PrReviewer.Hosted.PairingSafety

/-!
# Runner credentials

A runner gets its credential at the exchange and a new one at each rotation, until it is
revoked; the table keeps the hash of the last one.  The history of a run keeps which
credential was issued to whom and which runners were revoked.  As long as no credential
is drawn twice and the hash is injective, the last credential of a runner is the only one
that authenticates it, and none does once it is revoked.

`logout` is `revoke_runner` for the runner whose credential it was called with.
-/

namespace PrReviewer
namespace Hosted

open Lib

/-- A credential handed out, or a registered runner revoked. -/
inductive CredentialEvent where
  | issued (runnerId : Uuid) (credential : String)
  | revoked (runnerId : Uuid)
deriving DecidableEq, Repr

def CredentialEvent.credential? : CredentialEvent → Option String
  | .issued _ credential => some credential
  | .revoked _ => none

/-- The credential of an event, if it was issued to this runner. -/
def CredentialEvent.issuedTo? (runnerId : Uuid) : CredentialEvent → Option String
  | .issued runnerId' credential => if runnerId' = runnerId then some credential else none
  | .revoked _ => none

/-- The credential an action draws. -/
def PairingAction.drawnCredential? : PairingAction → Option String
  | .exchangePairingCode _ _ _ credential => some credential
  | .elsewhere (.rotateRunnerCredential _ _ newCredential) _ => some newCredential
  | _ => none

section Credentials

variable (hashRunnerCredential : String → String)

/-- `logout_route`. -/
def logoutRoute (s : HostedState) (bearer : Option String) : Except HostedError HostedState :=
  (authenticateBearer hashRunnerCredential s bearer).map (fun runner =>
    revokeRunner s runner.runnerId)

/-- The event of a step. -/
def credentialEvent (s : PairingState) : PairingAction → Option CredentialEvent
  | .exchangePairingCode code proof drawnId credential =>
      match exchangePairingCode hashRunnerCredential s code proof drawnId credential with
      | .ok (.credential runnerId credential, _) => some (.issued runnerId credential)
      | _ => none
  | .elsewhere a _ =>
      match a with
      | .rotateRunnerCredential runnerId currentCredential newCredential =>
          match
              rotateRunnerCredential hashRunnerCredential s.hosted runnerId currentCredential
                newCredential with
          | .ok _ => some (.issued runnerId newCredential)
          | .error _ => none
      | .revokeRunner runnerId =>
          if (s.hosted.runners.find? runnerId).isSome then some (.revoked runnerId) else none
      | _ => none
  | _ => none

/-- The events of a run, newest first. -/
def noteCredential
    (events : List CredentialEvent) (s : PairingState) (a : PairingAction) :
    List CredentialEvent :=
  (credentialEvent hashRunnerCredential s a).toList ++ events

/-- The credential authenticates as this runner. -/
def AuthenticatesAs (s : HostedState) (credential : String) (runnerId : Uuid) : Prop :=
  ∃ runner, authenticateRunner hashRunnerCredential s credential = .ok runner ∧
    runner.runnerId = runnerId

/-- What holds of a state with the events that led to it. -/
structure CredentialsSafe (x : PairingState × List CredentialEvent) : Prop where
  one_credential : ∀ runner ∈ x.1.hosted.runners.rows, runner.revokedAt = none →
    ∃! credential, AuthenticatesAs hashRunnerCredential x.1.hosted credential runner.id
  issued_only : ∀ credential runnerId,
    AuthenticatesAs hashRunnerCredential x.1.hosted credential runnerId →
      .issued runnerId credential ∈ x.2
  issued_once : (x.2.filterMap CredentialEvent.credential?).Nodup
  replaced : ∀ newer older runnerId credential replacement,
    x.2 = newer ++ .issued runnerId credential :: older →
      .issued runnerId replacement ∈ newer →
        ∀ runnerId', ¬ AuthenticatesAs hashRunnerCredential x.1.hosted credential runnerId'
  revoked_credential : ∀ runnerId credential,
    .revoked runnerId ∈ x.2 → .issued runnerId credential ∈ x.2 →
      ∀ runnerId', ¬ AuthenticatesAs hashRunnerCredential x.1.hosted credential runnerId'
  revoked_rotation : ∀ runnerId, .revoked runnerId ∈ x.2 →
    ∀ currentCredential newCredential, ∃ reason,
      rotateRunnerCredential hashRunnerCredential x.1.hosted runnerId currentCredential
        newCredential = .error reason
  revoked_claim : ∀ runner : AuthenticatedRunner, .revoked runner.runnerId ∈ x.2 →
    ∀ leaseToken tie, claimJob hashRunnerCredential x.1.hosted runner leaseToken tie =
      .ok (.noJob, x.1.hosted)
  refused_rotation : ∀ runnerId currentCredential newCredential reason,
    rotateRunnerCredential hashRunnerCredential x.1.hosted runnerId currentCredential
        newCredential = .error reason →
      pairingStep hashRunnerCredential x.1
        (.elsewhere (.rotateRunnerCredential runnerId currentCredential newCredential) rfl) =
          x.1
  logout : ∀ credential s',
    logoutRoute hashRunnerCredential x.1.hosted (some credential) = .ok s' →
      ∃ runnerId, AuthenticatesAs hashRunnerCredential x.1.hosted credential runnerId ∧
        s' = step hashRunnerCredential x.1.hosted (.revokeRunner runnerId)

/-- The rows of the runners and the events agree. -/
structure CredentialsRecorded (x : PairingState × List CredentialEvent) : Prop where
  current : ∀ runner ∈ x.1.hosted.runners.rows, ∃ credential,
    runner.credentialHash = hashRunnerCredential credential ∧
      (x.2.filterMap (CredentialEvent.issuedTo? runner.id)).head? = some credential
  known : ∀ runnerId credential, .issued runnerId credential ∈ x.2 →
    x.1.hosted.runners.find? runnerId ≠ none
  revoked : ∀ runnerId, .revoked runnerId ∈ x.2 →
    ∃ row, x.1.hosted.runners.find? runnerId = some row ∧ row.revokedAt.isSome = true
  once : (x.2.filterMap CredentialEvent.credential?).Nodup

end Credentials

/-! ## What the record gives -/

section Recorded

variable {hashRunnerCredential : String → String}
variable {x : PairingState × List CredentialEvent}

theorem issuedTo?_eq_some
    {e : CredentialEvent} {runnerId : Uuid} {credential : String} :
    e.issuedTo? runnerId = some credential ↔ e = .issued runnerId credential := by
  cases e with
  | revoked r => simp [CredentialEvent.issuedTo?]
  | issued r c =>
      by_cases hr : r = runnerId
      · simp [CredentialEvent.issuedTo?, hr]
      · simp [CredentialEvent.issuedTo?, hr]

/-- A credential is issued once. -/
theorem not_issued_again
    {newer older : List CredentialEvent} {runnerId : Uuid} {credential : String}
    (hnodup : ((newer ++ .issued runnerId credential :: older).filterMap
      CredentialEvent.credential?).Nodup)
    (runnerId' : Uuid) :
    .issued runnerId' credential ∉ newer ∧ .issued runnerId' credential ∉ older := by
  have hissued : ∀ events : List CredentialEvent, .issued runnerId' credential ∈ events →
      credential ∈ events.filterMap CredentialEvent.credential? :=
    fun _ h => List.mem_filterMap.mpr ⟨_, h, rfl⟩
  have hcons : (.issued runnerId credential :: older).filterMap CredentialEvent.credential? =
      credential :: older.filterMap CredentialEvent.credential? := rfl
  rw [List.filterMap_append, hcons, List.nodup_append, List.nodup_cons] at hnodup
  obtain ⟨_, ⟨holder, _⟩, hdisjoint⟩ := hnodup
  constructor
  · intro h
    exact hdisjoint credential (hissued newer h) credential List.mem_cons_self rfl
  · intro h
    exact holder (hissued older h)

/-- A credential is issued to one runner. -/
theorem issued_to_one
    {events : List CredentialEvent} {runnerId runnerId' : Uuid} {credential : String}
    (hnodup : (events.filterMap CredentialEvent.credential?).Nodup)
    (h : .issued runnerId credential ∈ events)
    (h' : .issued runnerId' credential ∈ events) :
    runnerId = runnerId' := by
  obtain ⟨newer, older, rfl⟩ := List.append_of_mem h
  obtain ⟨hnewer, holder⟩ := not_issued_again hnodup runnerId'
  rcases List.mem_append.mp h' with hmem | hmem
  · exact absurd hmem hnewer
  · rcases List.mem_cons.mp hmem with hsame | hmem
    · cases hsame
      rfl
    · exact absurd hmem holder

theorem issued_of_head
    {events : List CredentialEvent} {runnerId : Uuid} {credential : String}
    (h : (events.filterMap (CredentialEvent.issuedTo? runnerId)).head? = some credential) :
    .issued runnerId credential ∈ events := by
  obtain ⟨e, he, hissued⟩ := List.mem_filterMap.mp (List.mem_of_mem_head? h)
  rw [issuedTo?_eq_some] at hissued
  rwa [hissued] at he

/-- A credential authenticates a runner exactly when it is the last one it was issued. -/
theorem CredentialsRecorded.authenticatesAs_iff
    (h : CredentialsRecorded hashRunnerCredential x)
    (hinjective : Function.Injective hashRunnerCredential)
    (credential : String) (runnerId : Uuid) :
    AuthenticatesAs hashRunnerCredential x.1.hosted credential runnerId ↔
      ∃ row ∈ x.1.hosted.runners.rows, row.id = runnerId ∧ row.revokedAt = none ∧
        (x.2.filterMap (CredentialEvent.issuedTo? runnerId)).head? = some credential := by
  have hcurrent : ∀ row ∈ x.1.hosted.runners.rows,
      row.credentialHash = hashRunnerCredential credential ↔
        (x.2.filterMap (CredentialEvent.issuedTo? row.id)).head? = some credential := by
    intro row hrow
    obtain ⟨last, hhash, hlast⟩ := h.current row hrow
    rw [hhash, hlast, Option.some.injEq]
    exact hinjective.eq_iff
  unfold AuthenticatesAs authenticateRunner
  cases hfound : x.1.hosted.runners.rows.find? (fun r =>
      r.credentialHash = hashRunnerCredential credential) with
  | none =>
      refine ⟨by rintro ⟨_, ⟨⟩, _⟩, ?_⟩
      rintro ⟨row, hrow, rfl, _, hlast⟩
      have hnone := List.find?_eq_none.mp hfound row hrow
      simp [(hcurrent row hrow).mpr hlast] at hnone
  | some row =>
      have hrow := List.mem_of_find?_eq_some hfound
      have hhash : row.credentialHash = hashRunnerCredential credential := by
        simpa using List.find?_some hfound
      have hlast := (hcurrent row hrow).mp hhash
      simp only
      constructor
      · rintro ⟨runner, hrunner, rfl⟩
        split at hrunner
        · cases hrunner
        · next hactive =>
            cases hrunner
            exact ⟨row, hrow, rfl, by simpa using hactive, hlast⟩
      · rintro ⟨row', hrow', rfl, hactive, hlast'⟩
        have hid : row.id = row'.id :=
          issued_to_one h.once (issued_of_head hlast) (issued_of_head hlast')
        have hsame : row = row' := x.1.hosted.runners.eq_of_key_eq hrow hrow' hid
        subst hsame
        rw [if_neg (by simp [hactive])]
        exact ⟨_, rfl, rfl⟩

/-- What the record of a run gives. -/
theorem CredentialsRecorded.safe
    (h : CredentialsRecorded hashRunnerCredential x)
    (hinjective : Function.Injective hashRunnerCredential) :
    CredentialsSafe hashRunnerCredential x := by
  have hissued : ∀ credential runnerId,
      AuthenticatesAs hashRunnerCredential x.1.hosted credential runnerId →
        .issued runnerId credential ∈ x.2 := by
    intro credential runnerId hauthenticates
    obtain ⟨_, _, _, _, hlast⟩ :=
      (h.authenticatesAs_iff hinjective credential runnerId).mp hauthenticates
    exact issued_of_head hlast
  refine ⟨?_, hissued, h.once, ?_, ?_, ?_, ?_, ?_, ?_⟩
  · intro runner hrunner hactive
    obtain ⟨credential, _, hlast⟩ := h.current runner hrunner
    refine ⟨credential, ?_, ?_⟩
    · exact (h.authenticatesAs_iff hinjective credential runner.id).mpr
        ⟨runner, hrunner, rfl, hactive, hlast⟩
    · intro other hother
      obtain ⟨_, _, _, _, hlast'⟩ := (h.authenticatesAs_iff hinjective other runner.id).mp hother
      exact Option.some.inj (hlast'.symm.trans hlast)
  · intro newer older runnerId credential replacement hsplit hreplaced runnerId' hauthenticates
    have hmem : .issued runnerId credential ∈ x.2 := by
      rw [hsplit]
      simp
    obtain rfl := issued_to_one h.once hmem (hissued credential runnerId' hauthenticates)
    obtain ⟨_, _, _, _, hlast⟩ :=
      (h.authenticatesAs_iff hinjective credential runnerId).mp hauthenticates
    -- the last credential was issued after this one, and no credential is issued twice
    have hnewer : .issued runnerId credential ∈ newer := by
      rw [hsplit, List.filterMap_append, List.head?_append] at hlast
      cases hhead : (newer.filterMap (CredentialEvent.issuedTo? runnerId)).head? with
      | none =>
          have hempty := List.head?_eq_none_iff.mp hhead
          have hnot := List.mem_filterMap.mpr ⟨_, hreplaced, issuedTo?_eq_some.mpr rfl⟩
          rw [hempty] at hnot
          cases hnot
      | some last =>
          rw [hhead] at hlast
          cases hlast
          exact issued_of_head hhead
    have hnodup := h.once
    rw [hsplit] at hnodup
    exact (not_issued_again hnodup runnerId).1 hnewer
  · intro runnerId credential hrevoked hmem runnerId' hauthenticates
    obtain rfl := issued_to_one h.once hmem (hissued credential runnerId' hauthenticates)
    obtain ⟨row, hrow, hid, hactive, _⟩ :=
      (h.authenticatesAs_iff hinjective credential runnerId).mp hauthenticates
    obtain ⟨row', hrow', hgone⟩ := h.revoked runnerId hrevoked
    rw [← hid, Table.find?_of_mem hrow] at hrow'
    cases hrow'
    rw [hactive] at hgone
    cases hgone
  · intro runnerId hrevoked currentCredential newCredential
    obtain ⟨row, hrow, hgone⟩ := h.revoked runnerId hrevoked
    unfold rotateRunnerCredential
    simp only [hrow, hgone, if_true]
    split
    · exact ⟨_, rfl⟩
    · exact ⟨_, rfl⟩
  · intro runner hrevoked leaseToken tie
    obtain ⟨row, hrow, hgone⟩ := h.revoked runner.runnerId hrevoked
    unfold claimJob
    rw [hrow]
    exact if_pos hgone
  · intro runnerId currentCredential newCredential reason hrefused
    simp only [pairingStep, step, hrefused]
    rfl
  · intro credential s' hlogout
    obtain ⟨runner, hbearer, rfl⟩ := map_eq_ok hlogout
    unfold authenticateBearer at hbearer
    simp only at hbearer
    split at hbearer
    · cases hbearer
    · next hrunner =>
        cases hbearer
        exact ⟨runner.runnerId, ⟨runner, hrunner, rfl⟩, rfl⟩

end Recorded

/-! ## The steps -/

/-- What a step does to the runners, and the event it leaves. -/
inductive RunnersChange
    (hashRunnerCredential : String → String)
    (s : PairingState) :
    PairingAction → Table RunnerRow.id → Option CredentialEvent → Prop
  | same
      {a : PairingAction} :
      RunnersChange hashRunnerCredential s a s.hosted.runners none
  | issued
      {code proof : String} {drawnId : Uuid} {credential : String}
      {runners : Table RunnerRow.id} {row : RunnerRow}
      (hinsert : s.hosted.runners.insert? row = some runners)
      (hid : row.id = drawnId)
      (hhash : row.credentialHash = hashRunnerCredential credential) :
      RunnersChange hashRunnerCredential s (.exchangePairingCode code proof drawnId credential)
        runners (some (.issued drawnId credential))
  | rotated
      {runnerId : Uuid} {currentCredential newCredential : String}
      {h : (HostedAction.rotateRunnerCredential runnerId currentCredential
        newCredential).ofExchange = false} {row : RunnerRow}
      (hrow : s.hosted.runners.find? runnerId = some row) :
      RunnersChange hashRunnerCredential s
        (.elsewhere (.rotateRunnerCredential runnerId currentCredential newCredential) h)
        (s.hosted.runners.alter runnerId
          (fun r => { r with credentialHash := hashRunnerCredential newCredential })
          (fun _ => rfl))
        (some (.issued runnerId newCredential))
  | revoked
      {runnerId : Uuid} {h : (HostedAction.revokeRunner runnerId).ofExchange = false} :
      RunnersChange hashRunnerCredential s (.elsewhere (.revokeRunner runnerId) h)
        (revokeRunner s.hosted runnerId).runners
        (if (s.hosted.runners.find? runnerId).isSome then some (.revoked runnerId) else none)

section Steps

variable {hashRunnerCredential : String → String}

variable (hashRunnerCredential) in
/-- The steps outside the exchange that neither rotate nor revoke. -/
theorem step_runners_same
    (s : HostedState) {a : HostedAction}
    (ha : a.ofExchange = false)
    (hrotate : ∀ runnerId currentCredential newCredential,
      a ≠ .rotateRunnerCredential runnerId currentCredential newCredential)
    (hrevoke : ∀ runnerId, a ≠ .revokeRunner runnerId) :
    (step hashRunnerCredential s a).runners = s.runners := by
  have hchange := step_policyChange hashRunnerCredential s ha
  generalize step hashRunnerCredential s a = s' at hchange ⊢
  cases hchange with
  | quiet hkept hrunners hassignments => exact hrunners
  | revoked => exact absurd rfl (hrevoke _)
  | rotated hrow hcurrent hactive => exact absurd rfl (hrotate _ _ _)

variable (hashRunnerCredential) in
/-- **Inversion of the pairing machine**, for the runners. -/
theorem pairingStep_runnersChange
    (s : PairingState) (a : PairingAction) :
    RunnersChange hashRunnerCredential s a
      (pairingStep hashRunnerCredential s a).hosted.runners
      (credentialEvent hashRunnerCredential s a) := by
  cases a with
  | createPairingCode deviceName challenge code =>
      simp only [pairingStep, credentialEvent]
      rcases createPairingCode_cases hashRunnerCredential s deviceName challenge code with
        ⟨e, he⟩ | ⟨pairingCodes, _, hok⟩
      · simp only [he]
        exact .same
      · simp only [hok]
        exact .same
  | approvePairingByHash codeHash access repositoryIds draw =>
      simp only [pairingStep, credentialEvent]
      rcases approvePairingByHash_cases s codeHash access repositoryIds draw with
        ⟨reason, hdenied⟩ | ⟨e, he⟩ | ⟨ids, s', hok, happroves⟩
      · simp only [hdenied]
        exact .same
      · simp only [he]
        exact .same
      · have hrunners : s'.hosted.runners = s.hosted.runners := by rw [happroves.hosted]
        simp only [hok, PairingState.commit, hrunners]
        exact .same
  | exchangePairingCode code proof drawnId credential =>
      simp only [pairingStep, credentialEvent]
      rcases exchangePairingCode_cases hashRunnerCredential s code proof drawnId credential with
        hdenied | ⟨e, he⟩ | ⟨id, holder, hrefused⟩ | ⟨row, approval, s', hok, hexchanges⟩
      · simp only [hdenied]
        exact .same
      · simp only [he]
        exact .same
      · simp only [hrefused]
        exact .same
      · simp only [hok]
        exact .issued hexchanges.runners rfl rfl
  | elsewhere a h =>
      cases a with
      | rotateRunnerCredential runnerId currentCredential newCredential =>
          simp only [pairingStep, credentialEvent, step]
          cases hrotate : rotateRunnerCredential hashRunnerCredential s.hosted runnerId
              currentCredential newCredential with
          | error reason => exact .same
          | ok s' =>
              obtain ⟨row, hrow, _, _, rfl⟩ := rotateRunnerCredential_eq_ok hrotate
              exact .rotated hrow
      | revokeRunner runnerId => exact .revoked
      | _ =>
          have hsame := step_runners_same hashRunnerCredential s.hosted h
            (by rintro _ _ _ ⟨⟩) (by rintro _ ⟨⟩)
          simp only [pairingStep, credentialEvent, hsame]
          exact .same

end Steps

/-! ## Runs -/

/-- Runners stay, and stay revoked. -/
def RunnersKept (t t' : Table RunnerRow.id) : Prop :=
  ∀ id row, t.find? id = some row →
    ∃ row', t'.find? id = some row' ∧
      (row.revokedAt.isSome = true → row'.revokedAt.isSome = true)

section Runs

variable {hashRunnerCredential : String → String} {s s' : PairingState}
variable {events : List CredentialEvent}

theorem RunnersKept.known
    {t t' : Table RunnerRow.id} {id : Uuid}
    (h : RunnersKept t t')
    (hknown : t.find? id ≠ none) :
    t'.find? id ≠ none := by
  obtain ⟨row, hrow⟩ := Option.ne_none_iff_exists'.mp hknown
  obtain ⟨row', hrow', _⟩ := h id row hrow
  rw [hrow']
  rintro ⟨⟩

theorem RunnersKept.revoked
    {t t' : Table RunnerRow.id} {id : Uuid}
    (h : RunnersKept t t')
    (hrevoked : ∃ row, t.find? id = some row ∧ row.revokedAt.isSome = true) :
    ∃ row, t'.find? id = some row ∧ row.revokedAt.isSome = true := by
  obtain ⟨row, hrow, hgone⟩ := hrevoked
  obtain ⟨row', hrow', hkept⟩ := h id row hrow
  exact ⟨row', hrow', hkept hgone⟩

/-- An update of the runners that takes no revocation back. -/
theorem runnersKept_updateWhere
    {t : Table RunnerRow.id} {p : RunnerRow → Bool} {f : RunnerRow → RunnerRow}
    (hf : ∀ r, (f r).id = r.id)
    (hrevoked : ∀ r, r.revokedAt.isSome = true → (f r).revokedAt.isSome = true) :
    RunnersKept t (t.updateWhere p f hf) := by
  intro id row hrow
  refine ⟨_, by rw [Table.find?_updateWhere, hrow, Option.map_some], ?_⟩
  intro hgone
  split
  · exact hrevoked row hgone
  · exact hgone

theorem revokeRunner_revokes
    {s : HostedState} {runnerId : Uuid} {row : RunnerRow}
    (hrow : s.runners.find? runnerId = some row) :
    ∃ row', (revokeRunner s runnerId).runners.find? runnerId = some row' ∧
      row'.revokedAt.isSome = true := by
  have hid := Table.key_of_find? hrow
  have hfound : (revokeRunner s runnerId).runners.find? runnerId =
      (s.runners.find? runnerId).map (fun r =>
        if decide (r.id = runnerId ∧ r.revokedAt = none) then
          { r with revokedAt := some s.now }
        else
          r) := by
    simp only [revokeRunner, Table.find?_updateWhere]
  rw [hrow, Option.map_some] at hfound
  refine ⟨_, hfound, ?_⟩
  cases hactive : row.revokedAt with
  | none => simp [hid]
  | some moment => simp [hactive]

/-- A fresh credential is issued. -/
theorem credentialsRecorded_issued
    {runnerId : Uuid} {credential : String}
    (h : CredentialsRecorded hashRunnerCredential (s, events))
    (hfresh : ∀ r, .issued r credential ∉ events)
    (hkept : RunnersKept s.hosted.runners s'.hosted.runners)
    (hknown : s'.hosted.runners.find? runnerId ≠ none)
    (hrows : ∀ row' ∈ s'.hosted.runners.rows,
      (row'.id = runnerId ∧ row'.credentialHash = hashRunnerCredential credential) ∨
        (row'.id ≠ runnerId ∧ row' ∈ s.hosted.runners.rows)) :
    CredentialsRecorded hashRunnerCredential (s', .issued runnerId credential :: events) := by
  refine ⟨?_, ?_, ?_, ?_⟩
  · intro row' hrow'
    rcases hrows row' hrow' with ⟨hid, hhash⟩ | ⟨hid, hold⟩
    · exact ⟨credential, hhash, by simp [CredentialEvent.issuedTo?, hid]⟩
    · obtain ⟨last, hhash, hlast⟩ := h.current row' hold
      refine ⟨last, hhash, ?_⟩
      have hother : ¬ runnerId = row'.id := fun hsame => hid hsame.symm
      simpa [CredentialEvent.issuedTo?, hother] using hlast
  · intro r c hissued
    rcases List.mem_cons.mp hissued with hnew | hold
    · cases hnew
      exact hknown
    · exact hkept.known (h.known r c hold)
  · intro r hrevoked
    rcases List.mem_cons.mp hrevoked with hnew | hold
    · cases hnew
    · exact hkept.revoked (h.revoked r hold)
  · refine List.nodup_cons.mpr ⟨?_, h.once⟩
    intro hmem
    obtain ⟨e, he, hcredential⟩ := List.mem_filterMap.mp hmem
    cases e with
    | issued r c =>
        cases hcredential
        exact hfresh r he
    | revoked r => cases hcredential

/-- The events and the runners agree after every step that draws a fresh credential. -/
theorem credentialsRecorded_step
    {x : PairingState × List CredentialEvent} {a : PairingAction}
    (h : CredentialsRecorded hashRunnerCredential x)
    (hfresh : ∀ c, a.drawnCredential? = some c → ∀ r, .issued r c ∉ x.2) :
    CredentialsRecorded hashRunnerCredential
      (withHistory (pairingStep hashRunnerCredential) (noteCredential hashRunnerCredential) x
        a) := by
  have hchange := pairingStep_runnersChange hashRunnerCredential x.1 a
  unfold withHistory noteCredential
  generalize pairingStep hashRunnerCredential x.1 a = s' at hchange ⊢
  generalize hrunners : s'.hosted.runners = runners at hchange
  generalize credentialEvent hashRunnerCredential x.1 a = event at hchange ⊢
  cases hchange with
  | same =>
      refine ⟨?_, ?_, ?_, h.once⟩
      · rw [hrunners]
        exact h.current
      · rw [hrunners]
        exact h.known
      · rw [hrunners]
        exact h.revoked
  | @issued code proof drawnId credential _ row hinsert hid hhash =>
      subst hrunners
      obtain ⟨hfree, hnewRows⟩ := Table.insert?_eq_some hinsert
      refine credentialsRecorded_issued h (hfresh credential rfl) ?_ ?_ ?_
      · intro id old hold
        refine ⟨old, ?_, fun hgone => hgone⟩
        rw [Table.find?_insert? hinsert, if_neg ?_]
        · exact hold
        · rintro rfl
          rw [hfree] at hold
          cases hold
      · rw [Table.find?_insert? hinsert, if_pos hid.symm]
        rintro ⟨⟩
      · intro row' hrow'
        rw [hnewRows] at hrow'
        rcases List.mem_append.mp hrow' with hold | hnew
        · refine .inr ⟨?_, hold⟩
          rw [← hid]
          exact Table.find?_eq_none_iff.mp hfree row' hold
        · rw [List.mem_singleton] at hnew
          subst hnew
          exact .inl ⟨hid, hhash⟩
  | @rotated runnerId currentCredential newCredential _ row hrow =>
      refine credentialsRecorded_issued h (hfresh newCredential rfl) ?_ ?_ ?_
      · rw [hrunners]
        unfold Table.alter
        apply runnersKept_updateWhere
        intro _ hgone
        exact hgone
      · rw [hrunners, Table.find?_alter, if_pos rfl, hrow]
        rintro ⟨⟩
      · intro row' hrow'
        rw [hrunners] at hrow'
        obtain ⟨old, hold, rfl⟩ := List.mem_map.mp hrow'
        by_cases hid : old.id = runnerId
        · simp [hid]
        · simp [hid, hold]
  | @revoked runnerId _ =>
      have hkept : RunnersKept x.1.hosted.runners s'.hosted.runners := by
        rw [hrunners]
        unfold revokeRunner
        apply runnersKept_updateWhere
        · intro _
          rfl
        · intro _ _
          rfl
      have hrows : ∀ row' ∈ s'.hosted.runners.rows, ∃ row ∈ x.1.hosted.runners.rows,
          row'.id = row.id ∧ row'.credentialHash = row.credentialHash := by
        intro row' hrow'
        rw [hrunners] at hrow'
        obtain ⟨row, hrow, rfl⟩ := List.mem_map.mp hrow'
        refine ⟨row, hrow, ?_⟩
        split
        · exact ⟨rfl, rfl⟩
        · exact ⟨rfl, rfl⟩
      have hold : CredentialsRecorded hashRunnerCredential (s', x.2) := by
        refine ⟨?_, fun r c hissued => hkept.known (h.known r c hissued),
          fun r hrevoked => hkept.revoked (h.revoked r hrevoked), h.once⟩
        intro row' hrow'
        obtain ⟨row, hrow, hid, hhash⟩ := hrows row' hrow'
        rw [hid, hhash]
        exact h.current row hrow
      split
      · next hknown =>
          refine ⟨hold.current, ?_, ?_, hold.once⟩
          · intro r c hissued
            rcases List.mem_cons.mp hissued with hnew | hmem
            · cases hnew
            · exact hold.known r c hmem
          · intro r hrevoked
            rcases List.mem_cons.mp hrevoked with hnew | hmem
            · cases hnew
              obtain ⟨row, hrow⟩ := Option.isSome_iff_exists.mp hknown
              rw [hrunners]
              exact revokeRunner_revokes hrow
            · exact hold.revoked r hmem
      · exact hold

/-- A credential that was issued had been drawn by the step. -/
theorem issued_drawn
    {x : PairingState × List CredentialEvent} {a : PairingAction} {r : Uuid} {c : String}
    (h : .issued r c ∈ (withHistory (pairingStep hashRunnerCredential)
      (noteCredential hashRunnerCredential) x a).2) :
    .issued r c ∈ x.2 ∨ a.drawnCredential? = some c := by
  have hchange := pairingStep_runnersChange hashRunnerCredential x.1 a
  unfold withHistory noteCredential at h
  generalize (pairingStep hashRunnerCredential x.1 a).hosted.runners = runners at hchange
  generalize credentialEvent hashRunnerCredential x.1 a = event at hchange h
  rcases List.mem_append.mp h with hnew | hold
  · right
    rw [Option.mem_toList] at hnew
    cases hchange with
    | same => cases hnew
    | issued hinsert hid hhash =>
        cases hnew
        rfl
    | rotated hrow =>
        cases hnew
        rfl
    | revoked =>
        split at hnew
        · cases hnew
        · cases hnew
  · exact .inl hold

end Runs

/--
In every run that draws no credential twice: each active runner has exactly one
credential, a replaced one and those of a revoked runner authenticate nobody, and a
revoked runner can neither rotate nor claim.
-/
theorem runner_credentials_safe
    (hashRunnerCredential : String → String)
    (hinjective : Function.Injective hashRunnerCredential)
    (actions : List PairingAction)
    (hfresh : (actions.filterMap PairingAction.drawnCredential?).Nodup) :
    Throughout
      (withHistory (pairingStep hashRunnerCredential) (noteCredential hashRunnerCredential))
      (CredentialsSafe hashRunnerCredential) (.empty, []) actions := by
  have hrecorded : Throughout
      (withHistory (pairingStep hashRunnerCredential) (noteCredential hashRunnerCredential))
      (CredentialsRecorded hashRunnerCredential) (.empty, []) actions := by
    refine throughout_of_fresh PairingAction.drawnCredential?
      (fun x c => ∃ r, .issued r c ∈ x.2) ?_ ?_ actions hfresh ?_ ?_
    · intro x a h hunused
      exact credentialsRecorded_step h (fun c hc r hissued => hunused c hc ⟨r, hissued⟩)
    · rintro x a c ⟨r, hissued⟩
      rcases issued_drawn hissued with hold | hdrawn
      · exact .inl ⟨r, hold⟩
      · exact .inr hdrawn
    · rintro c _ ⟨r, hissued⟩
      cases hissued
    · refine ⟨?_, ?_, ?_, List.nodup_nil⟩
      · rintro runner ⟨⟩
      · rintro r c ⟨⟩
      · rintro r ⟨⟩
  exact hrecorded.mono (fun x h => h.safe hinjective)

/-- The laptop is paired, rotates its credential and is revoked. -/
def rotatedThenRevoked : List PairingAction :=
  laptopCode ++
    [.approvePairingByHash (sampleHash "code") sampleAccess [11] (fun _ => webRepositoryId),
      .exchangePairingCode "code" "verifier" laptopRunner.runnerId "credential-1",
      .elsewhere
        (.rotateRunnerCredential laptopRunner.runnerId "credential-1" "credential-2") rfl,
      .elsewhere (.revokeRunner laptopRunner.runnerId) rfl]

/-- The events of that run, and what the theorem says of it. -/
theorem rotatedThenRevoked_safe :
    (exec (withHistory (pairingStep sampleHash) (noteCredential sampleHash)) (.empty, [])
        rotatedThenRevoked).2 =
      [.revoked laptopRunner.runnerId, .issued laptopRunner.runnerId "credential-2",
        .issued laptopRunner.runnerId "credential-1"] ∧
    Throughout (withHistory (pairingStep sampleHash) (noteCredential sampleHash))
      (CredentialsSafe sampleHash) (.empty, []) rotatedThenRevoked :=
  ⟨by decide,
    runner_credentials_safe sampleHash sampleHash_injective rotatedThenRevoked (by decide)⟩

end Hosted
end PrReviewer
