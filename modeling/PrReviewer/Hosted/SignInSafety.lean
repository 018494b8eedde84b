import PrReviewer.Hosted.SignIn

/-!
# Whoever signs in

In every run of sign-ins, callbacks and approvals, in whatever order their transactions fall, a
state is redeemed once and by its own binding secret; an approval rests on what GitHub listed, once,
in the callback of a redeemed state; and a runner has only repositories that GitHub listed so.
-/

namespace PrReviewer
namespace Hosted

open Lib

/-! ## What was listed -/

section Listing

theorem of_lookup_foldl_dictSet
    {β : Type} {entries items : List (Int × β)} {key : Int} {value : β}
    (h : (entries.foldl (fun items entry => dictSet items entry.1 entry.2) items).lookup key =
      some value) :
    (key, value) ∈ entries ∨ items.lookup key = some value := by
  induction entries generalizing items with
  | nil => exact .inr h
  | cons entry rest ih =>
      rcases ih h with hrest | hitems
      · exact .inl (List.mem_cons_of_mem _ hrest)
      · rw [lookup_dictSet] at hitems
        split at hitems
        · next hkey =>
            cases hitems
            subst hkey
            exact .inl List.mem_cons_self
        · exact .inr hitems

/-- A dict holds what one of its entries gave it. -/
theorem mem_of_lookup_dictOfEntries
    {β : Type} {entries : List (Int × β)} {key : Int} {value : β}
    (h : (dictOfEntries entries).lookup key = some value) :
    (key, value) ∈ entries := by
  rcases of_lookup_foldl_dictSet h with hmem | hnil
  · exact hmem
  · cases hnil

/-- GitHub listed the repository under the installation. -/
def Listed (listing : Listing) (installationId githubRepositoryId : Int) : Prop :=
  ∃ repositories, (installationId, repositories) ∈ listing ∧
    ∃ name, (githubRepositoryId, name) ∈ repositories

theorem Capture.listed
    {c : Capture} {i n : Int} {repositories : List (Int × String)}
    (hinstallation : c.assertion.installations.lookup i = some repositories)
    (hrepository : (repositories.lookup n).isSome = true) :
    Listed c.listing i n := by
  obtain ⟨entry, hentry, heq⟩ := List.mem_map.mp (mem_of_lookup_dictOfEntries hinstallation)
  cases heq
  obtain ⟨name, hname⟩ := Option.isSome_iff_exists.mp hrepository
  exact ⟨entry.2, hentry, name, mem_of_lookup_dictOfEntries hname⟩

end Listing

/-! ## What a step does -/

/-- The access is what the assertion gives for its installation, and the assertion is in time. -/
structure Grant.Proved (grant : Grant) : Prop where
  fresh : grant.time < grant.assertion.expiresAt
  user : grant.access.githubUserId = grant.assertion.githubUserId
  listed : grant.assertion.installations.lookup grant.access.installationId =
    some grant.access.repositories

/-- Who asks for the approval: the holder of a sealed assertion, or the callback of a state that
was drawn for the code, when there is one installation. -/
def Grant.Asked (s : SignInState) (grant : Grant) : Prop :=
  (grant.callback = none ∧ grant.assertion ∈ s.issued) ∨
    ∃ stateHash request, grant.callback = some stateHash ∧
      s.callbacks stateHash = some (.deciding request grant.assertion) ∧
      request.pairingCodeHash = some grant.codeHash ∧
      grant.assertion.installations.length = 1

theorem verifyInstallationAccess_eq_some
    (grant : Grant) {installationId : Int}
    (h : verifyInstallationAccess (some grant.assertion) grant.time installationId =
      some grant.access) :
    grant.Proved := by
  simp only [verifyInstallationAccess] at h
  split at h
  · cases h
  · next hfresh =>
      obtain ⟨matched, hmatched, haccess⟩ := Option.map_eq_some_iff.mp h
      refine ⟨not_le.mp hfresh, ?_, ?_⟩
      · rw [← haccess]
      · rw [← haccess]
        exact hmatched

theorem soleAccess_eq_some
    (grant : Grant)
    (h : soleAccess grant.assertion grant.time = some grant.access) :
    grant.Proved ∧ grant.assertion.installations.length = 1 := by
  unfold soleAccess at h
  split at h
  · next installationId matched hsole =>
      refine ⟨verifyInstallationAccess_eq_some grant h, ?_⟩
      rw [hsole]
      rfl
  · cases h

/-- How a step can leave the callbacks of the state before it. -/
def CallbacksDecided (before after : String → Option CallbackPhase) : Prop :=
  ∀ stateHash phase, after stateHash = some phase →
    before stateHash = some phase ∨
      ∃ request assertion, before stateHash = some (.deciding request assertion) ∧
        phase = .answering assertion

/-- What a step does, and the history after it. -/
inductive SignInChange
    (hashRunnerCredential : String → String) (s : SignInState) (h : SignInHistory) :
    SignInState → SignInHistory → Prop
  | unchanged :
      SignInChange hashRunnerCredential s h s h
  | began
      {key secret : String} {request : SignInRequest}
      {oauthStates : Tickets String String SignInRequest}
      (hpath : request.returnTo ∈ allowedReturnToPaths)
      (hissue : issue s.oauthStates key secret request s.pairing.hosted.now = some oauthStates) :
      SignInChange hashRunnerCredential s h { s with oauthStates := oauthStates }
        { h with tickets := .issued key secret request s.pairing.hosted.now :: h.tickets }
  | completed
      {key secret : String} {request : SignInRequest}
      {oauthStates : Tickets String String SignInRequest}
      (hredeem : redeem stateLifetime s.oauthStates key secret s.pairing.hosted.now =
        some (request, oauthStates)) :
      SignInChange hashRunnerCredential s h
        (SignInState.setCallback { s with oauthStates := oauthStates } key
          (some (.completing request)))
        { h with tickets := .redeemed key secret request s.pairing.hosted.now :: h.tickets }
  | verified
      {stateHash : String} {request : SignInRequest} {githubUserId : Int}
      (hphase : s.callbacks stateHash = some (.completing request)) :
      SignInChange hashRunnerCredential s h
        (s.setCallback stateHash (some (.capturing request githubUserId))) h
  | captured
      {c : Capture} {request : SignInRequest}
      (hphase : s.callbacks c.stateHash = some (.capturing request c.githubUserId)) :
      SignInChange hashRunnerCredential s h
        (s.setCallback c.stateHash (some (.deciding request c.assertion)))
        { h with captures := c :: h.captures }
  | issued
      {stateHash : String} {assertion : SignInAssertion}
      (hphase : s.callbacks stateHash = some (.answering assertion)) :
      SignInChange hashRunnerCredential s h
        (SignInState.setCallback { s with issued := assertion :: s.issued } stateHash none) h
  | decided
      {callbacks : String → Option CallbackPhase}
      (hcallbacks : CallbacksDecided s.callbacks callbacks) :
      SignInChange hashRunnerCredential s h { s with callbacks := callbacks } h
  | approved
      (grant : Grant) (repositoryIds : List Int) (draw : Nat → Uuid)
      {callbacks : String → Option CallbackPhase}
      (hcallbacks : CallbacksDecided s.callbacks callbacks)
      (hproved : grant.Proved)
      (hasked : grant.Asked s) :
      SignInChange hashRunnerCredential s h
        { s with
          pairing := pairingStep hashRunnerCredential s.pairing
            (.approvePairingByHash grant.codeHash grant.access repositoryIds draw)
          callbacks := callbacks }
        (noteApproval hashRunnerCredential h s.pairing grant repositoryIds draw)
  | elsewhere
      {a : PairingAction} (ha : a.ofApproval = false) :
      SignInChange hashRunnerCredential s h
        { s with pairing := pairingStep hashRunnerCredential s.pairing a }
        { h with pairing := noteEvent hashRunnerCredential h.pairing s.pairing a }

section Steps

variable {hashRunnerCredential : String → String} {s : SignInState} {h : SignInHistory}

theorem callbacksDecided_none
    (callbacks : String → Option CallbackPhase) (stateHash : String) :
    CallbacksDecided callbacks (Function.update callbacks stateHash none) := by
  intro k phase hk
  by_cases hkey : k = stateHash
  · rw [hkey, Function.update_self] at hk
    cases hk
  · rw [Function.update_of_ne hkey] at hk
    exact .inl hk

theorem callbacksDecided_answering
    {callbacks : String → Option CallbackPhase} {stateHash : String} {request : SignInRequest}
    {assertion : SignInAssertion}
    (hphase : callbacks stateHash = some (.deciding request assertion)) :
    CallbacksDecided callbacks
      (Function.update callbacks stateHash (some (.answering assertion))) := by
  intro k phase hk
  by_cases hkey : k = stateHash
  · subst hkey
    rw [Function.update_self] at hk
    cases hk
    exact .inr ⟨request, assertion, hphase, rfl⟩
  · rw [Function.update_of_ne hkey] at hk
    exact .inl hk

theorem callbacksDecided_refl
    (callbacks : String → Option CallbackPhase) :
    CallbacksDecided callbacks callbacks :=
  fun _ _ h => .inl h

/-- An approval that raises leaves the pairing as it was, and no event. -/
theorem pairingStep_of_error
    {s : PairingState} {codeHash : String} {access : VerifiedInstallationAccess}
    {repositoryIds : List Int} {draw : Nat → Uuid} {e : HostedError}
    (h : approvePairingByHash s codeHash access repositoryIds draw = .error e) :
    pairingStep hashRunnerCredential s (.approvePairingByHash codeHash access repositoryIds draw) =
      s := by
  rw [pairingStep, h]
  rfl

theorem pairingStep_of_ok
    {s s' : PairingState} {codeHash : String} {access : VerifiedInstallationAccess}
    {repositoryIds : List Int} {draw : Nat → Uuid} {outcome : ApprovalOutcome}
    (h : approvePairingByHash s codeHash access repositoryIds draw = .ok (outcome, s')) :
    pairingStep hashRunnerCredential s (.approvePairingByHash codeHash access repositoryIds draw) =
      s' := by
  rw [pairingStep, h]
  rfl

/-- The approval of the code a state was drawn for. -/
theorem autoApprove_change
    {stateHash : String} {request : SignInRequest} {assertion : SignInAssertion}
    (time : Int) (draw : Nat → Uuid)
    (hphase : s.callbacks stateHash = some (.deciding request assertion)) :
    SignInChange hashRunnerCredential s h
      (signInStep hashRunnerCredential s (.autoApprove stateHash time draw))
      (noteSignIn hashRunnerCredential h s (.autoApprove stateHash time draw)) := by
  simp only [signInStep, noteSignIn, hphase]
  cases hcode : request.pairingCodeHash with
  | none => exact .decided (callbacksDecided_answering hphase)
  | some codeHash =>
      cases haccess : soleAccess assertion time with
      | none =>
          simp only [autoApproveWaitingPairing, haccess]
          exact .decided (callbacksDecided_answering hphase)
      | some access =>
          simp only [autoApproveWaitingPairing, haccess]
          let grant : Grant :=
            { codeHash := codeHash
              access := access
              assertion := assertion
              time := time
              callback := some stateHash }
          obtain ⟨hproved, hsole⟩ := soleAccess_eq_some grant haccess
          have hasked : grant.Asked s := .inr ⟨stateHash, request, rfl, hphase, hcode, hsole⟩
          cases houtcome : approvePairingByHash s.pairing codeHash access
              (access.repositories.map Prod.fst) draw with
          | error e =>
              have hchange : SignInChange hashRunnerCredential s h _ _ :=
                .approved grant (access.repositories.map Prod.fst) draw
                  (callbacksDecided_none s.callbacks stateHash) hproved hasked
              rw [pairingStep_of_error houtcome] at hchange
              exact hchange
          | ok answer =>
              have hchange : SignInChange hashRunnerCredential s h _ _ :=
                .approved grant (access.repositories.map Prod.fst) draw
                  (callbacksDecided_answering hphase) hproved hasked
              rw [pairingStep_of_ok houtcome] at hchange
              exact hchange

/-- The approval route. -/
theorem approvePairing_change
    (cookie : SignInAssertion) (readAt time : Int) (code : String) (installationId : Int)
    (repositoryIds : List Int) (draw : Nat → Uuid) :
    SignInChange hashRunnerCredential s h
      (signInStep hashRunnerCredential s
        (.approvePairing cookie readAt time code installationId repositoryIds draw))
      (noteSignIn hashRunnerCredential h s
        (.approvePairing cookie readAt time code installationId repositoryIds draw)) := by
  simp only [signInStep, noteSignIn, approvePairingRoute]
  split
  · next hread =>
      cases haccess : verifyInstallationAccess (some cookie) time installationId with
      | none =>
          simp only [submitPairingApproval, haccess]
          exact .unchanged
      | some access =>
          simp only [submitPairingApproval, haccess]
          let grant : Grant :=
            { codeHash := hashRunnerCredential code
              access := access
              assertion := cookie
              time := time
              callback := none }
          have hproved := verifyInstallationAccess_eq_some grant haccess
          have hchange : SignInChange hashRunnerCredential s h _ _ :=
            .approved grant repositoryIds draw (callbacksDecided_refl s.callbacks) hproved
              (.inl ⟨rfl, hread.1⟩)
          cases houtcome : approvePairingByHash s.pairing (hashRunnerCredential code) access
              repositoryIds draw with
          | error e =>
              rw [pairingStep_of_error houtcome] at hchange
              simp only [approvePairing, houtcome]
              exact hchange
          | ok answer =>
              rw [pairingStep_of_ok houtcome] at hchange
              simp only [approvePairing, houtcome]
              exact hchange
  · exact .unchanged

variable (hashRunnerCredential s h) in
/-- **Inversion of the sign-in machine.** -/
theorem signInStep_change
    (a : SignInAction) :
    SignInChange hashRunnerCredential s h (signInStep hashRunnerCredential s a)
      (noteSignIn hashRunnerCredential h s a) := by
  cases a with
  | beginSignIn returnTo pairingCode state bindingSecret =>
      simp only [signInStep, noteSignIn, beginSignIn]
      by_cases hpath : returnTo ∈ allowedReturnToPaths
      · simp only [not_true_eq_false, if_false, hpath]
        cases hissue : issue s.oauthStates (hashRunnerCredential state)
            (hashRunnerCredential bindingSecret)
            { returnTo := returnTo
              pairingCodeHash := pairingCodeHashOf hashRunnerCredential pairingCode }
            s.pairing.hosted.now with
        | none => exact .unchanged
        | some oauthStates => exact .began hpath hissue
      · simp only [not_false_eq_true, if_true, hpath]
        exact .unchanged
  | completeSignIn state bindingSecret =>
      simp only [signInStep, noteSignIn, completeSignIn]
      cases hredeem : redeem stateLifetime s.oauthStates (hashRunnerCredential state)
          (hashRunnerCredential bindingSecret) s.pairing.hosted.now with
      | none => exact .unchanged
      | some answer => exact .completed hredeem
  | userVerified stateHash githubUserId =>
      simp only [signInStep, noteSignIn]
      split
      · next request hphase => exact .verified hphase
      · exact .unchanged
  | captureLiveAssertion stateHash listing time =>
      simp only [signInStep, noteSignIn]
      cases hphase : s.callbacks stateHash with
      | none => exact .unchanged
      | some phase =>
          cases phase with
          | capturing request githubUserId =>
              exact .captured (c := ⟨stateHash, githubUserId, listing, time⟩) hphase
          | completing request => exact .unchanged
          | deciding request assertion => exact .unchanged
          | answering assertion => exact .unchanged
  | autoApprove stateHash time draw =>
      cases hphase : s.callbacks stateHash with
      | none =>
          simp only [signInStep, noteSignIn, hphase]
          exact .unchanged
      | some phase =>
          cases phase with
          | deciding request assertion => exact autoApprove_change time draw hphase
          | completing request =>
              simp only [signInStep, noteSignIn, hphase]
              exact .unchanged
          | capturing request githubUserId =>
              simp only [signInStep, noteSignIn, hphase]
              exact .unchanged
          | answering assertion =>
              simp only [signInStep, noteSignIn, hphase]
              exact .unchanged
  | issueLiveSignIn stateHash =>
      simp only [signInStep, noteSignIn]
      split
      · next assertion hphase => exact .issued hphase
      · exact .unchanged
  | raises stateHash => exact .decided (callbacksDecided_none s.callbacks stateHash)
  | approvePairing cookie readAt time code installationId repositoryIds draw =>
      exact approvePairing_change cookie readAt time code installationId repositoryIds draw
  | elsewhere a ha => exact .elsewhere ha

end Steps

/-! ## What holds of a state and its history -/

/-- The state was redeemed for the request. -/
def SignInHistory.Redeemed (h : SignInHistory) (stateHash : String) (request : SignInRequest) :
    Prop :=
  ∃ secret moment, .redeemed stateHash secret request moment ∈ h.tickets

/-- The assertion was captured in the callback of the state. -/
def SignInHistory.Captured (h : SignInHistory) (stateHash : String) (assertion : SignInAssertion) :
    Prop :=
  ∃ c ∈ h.captures, c.stateHash = stateHash ∧ c.assertion = assertion

/-- What happened when a callback has come so far. -/
def SignInHistory.PhaseOf (h : SignInHistory) (stateHash : String) : CallbackPhase → Prop
  | .completing request =>
      h.Redeemed stateHash request ∧ stateHash ∉ h.captures.map Capture.stateHash
  | .capturing request _ =>
      h.Redeemed stateHash request ∧ stateHash ∉ h.captures.map Capture.stateHash
  | .deciding request assertion => h.Redeemed stateHash request ∧ h.Captured stateHash assertion
  | .answering assertion => h.Captured stateHash assertion

/-- The assertion of the approval was captured; one given by a callback is for the code its state
was drawn for, and the assertion has one installation. -/
def SignInHistory.Backs (h : SignInHistory) (grant : Grant) : Prop :=
  ∃ stateHash, h.Captured stateHash grant.assertion ∧
    ∀ callback, grant.callback = some callback → callback = stateHash ∧
      grant.assertion.installations.length = 1 ∧
      ∃ request, h.Redeemed stateHash request ∧ request.pairingCodeHash = some grant.codeHash

structure SignInInvariant (x : SignInState × SignInHistory) : Prop where
  pairing : PairingSafe (x.1.pairing, x.2.pairing)
  recorded : Recorded (x.1.pairing, x.2.pairing)
  states : HonestTickets stateLifetime x.1.pairing.hosted.now x.1.oauthStates x.2.tickets
  paths : ∀ key secret request moment, .issued key secret request moment ∈ x.2.tickets →
    request.returnTo ∈ allowedReturnToPaths
  phases : ∀ stateHash phase, x.1.callbacks stateHash = some phase → x.2.PhaseOf stateHash phase
  one_capture : (x.2.captures.map Capture.stateHash).Nodup
  captured : ∀ c ∈ x.2.captures, ∃ request, x.2.Redeemed c.stateHash request
  issued : ∀ assertion ∈ x.1.issued, ∃ stateHash, x.2.Captured stateHash assertion
  proved : ∀ grant ∈ x.2.grants, grant.Proved
  backed : ∀ grant ∈ x.2.grants, x.2.Backs grant
  granted : ∀ codeHash access ids, .approved codeHash access ids ∈ x.2.pairing →
    ∃ grant ∈ x.2.grants, grant.codeHash = codeHash ∧ grant.access = access

section Invariant

variable {hashRunnerCredential : String → String} {s : SignInState} {h h' : SignInHistory}

theorem SignInHistory.Redeemed.extend
    {stateHash : String} {request : SignInRequest}
    (hredeemed : h.Redeemed stateHash request)
    (hsubset : h.tickets ⊆ h'.tickets) :
    h'.Redeemed stateHash request := by
  obtain ⟨secret, moment, hmem⟩ := hredeemed
  exact ⟨secret, moment, hsubset hmem⟩

theorem SignInHistory.Captured.extend
    {stateHash : String} {assertion : SignInAssertion}
    (hcaptured : h.Captured stateHash assertion)
    (hsubset : h.captures ⊆ h'.captures) :
    h'.Captured stateHash assertion := by
  obtain ⟨c, hc, hsame⟩ := hcaptured
  exact ⟨c, hsubset hc, hsame⟩

theorem SignInHistory.Backs.extend
    {grant : Grant}
    (hbacks : h.Backs grant)
    (htickets : h.tickets ⊆ h'.tickets)
    (hcaptures : h.captures ⊆ h'.captures) :
    h'.Backs grant := by
  obtain ⟨stateHash, hcaptured, hcallback⟩ := hbacks
  refine ⟨stateHash, hcaptured.extend hcaptures, ?_⟩
  intro callback hc
  obtain ⟨heq, hsole, request, hredeemed, hcode⟩ := hcallback callback hc
  exact ⟨heq, hsole, request, hredeemed.extend htickets, hcode⟩

/-- A phase is left alone by what happens in other callbacks. -/
theorem SignInHistory.PhaseOf.extend
    {stateHash : String} {phase : CallbackPhase}
    (hphase : h.PhaseOf stateHash phase)
    (htickets : h.tickets ⊆ h'.tickets)
    (hcaptures : h.captures ⊆ h'.captures)
    (hother : stateHash ∉ h.captures.map Capture.stateHash →
      stateHash ∉ h'.captures.map Capture.stateHash) :
    h'.PhaseOf stateHash phase := by
  cases phase with
  | completing request => exact ⟨hphase.1.extend htickets, hother hphase.2⟩
  | capturing request githubUserId => exact ⟨hphase.1.extend htickets, hother hphase.2⟩
  | deciding request assertion =>
      exact ⟨hphase.1.extend htickets, hphase.2.extend hcaptures⟩
  | answering assertion => exact SignInHistory.Captured.extend hphase hcaptures

/-- A redeemed state was redeemed by someone. -/
theorem SignInHistory.Redeemed.key_mem
    {stateHash : String} {request : SignInRequest}
    (hredeemed : h.Redeemed stateHash request) :
    stateHash ∈ h.tickets.filterMap TicketEvent.redeemedKey? := by
  obtain ⟨secret, moment, hmem⟩ := hredeemed
  exact List.mem_filterMap.mpr ⟨_, hmem, rfl⟩

/-- The phases after the callback of one state went on. -/
theorem phases_setCallback
    {stateHash : String} {phase : CallbackPhase}
    (hphases : ∀ k phase, s.callbacks k = some phase → h.PhaseOf k phase)
    (hphase : h.PhaseOf stateHash phase) :
    ∀ k phase', (s.setCallback stateHash (some phase)).callbacks k = some phase' →
      h.PhaseOf k phase' := by
  intro k phase' hk
  by_cases hkey : k = stateHash
  · subst hkey
    rw [SignInState.callbacks_setCallback_self] at hk
    cases hk
    exact hphase
  · rw [SignInState.callbacks_setCallback_of_ne hkey] at hk
    exact hphases k phase' hk

/-- The phases after a callback has decided, or was dropped. -/
theorem phases_decided
    {callbacks : String → Option CallbackPhase}
    (hphases : ∀ k phase, s.callbacks k = some phase → h.PhaseOf k phase)
    (hcallbacks : CallbacksDecided s.callbacks callbacks) :
    ∀ k phase, callbacks k = some phase → h.PhaseOf k phase := by
  intro k phase hk
  rcases hcallbacks k phase hk with hsame | ⟨request, assertion, hdeciding, rfl⟩
  · exact hphases k phase hsame
  · exact (hphases k _ hdeciding).2

theorem invariant_began
    {key secret : String} {request : SignInRequest}
    {oauthStates : Tickets String String SignInRequest}
    (hinv : SignInInvariant (s, h))
    (hpath : request.returnTo ∈ allowedReturnToPaths)
    (hissue : issue s.oauthStates key secret request s.pairing.hosted.now = some oauthStates) :
    SignInInvariant ({ s with oauthStates := oauthStates },
      { h with tickets := .issued key secret request s.pairing.hosted.now :: h.tickets }) := by
  have hsubset := List.subset_cons_self
    (TicketEvent.issued key secret request s.pairing.hosted.now) h.tickets
  refine
    { hinv with
      states := hinv.states.issue hissue
      paths := ?_
      phases := fun k phase hk =>
        (hinv.phases k phase hk).extend hsubset (List.Subset.refl _) id
      captured := fun c hc => (hinv.captured c hc).imp fun _ hr => hr.extend hsubset
      backed := fun grant hgrant =>
        (hinv.backed grant hgrant).extend hsubset (List.Subset.refl _) }
  intro k secret' request' moment hmem
  rcases List.mem_cons.mp hmem with heq | hold
  · cases heq
    exact hpath
  · exact hinv.paths k secret' request' moment hold

theorem invariant_completed
    {key secret : String} {request : SignInRequest}
    {oauthStates : Tickets String String SignInRequest}
    (hinv : SignInInvariant (s, h))
    (hredeem : redeem stateLifetime s.oauthStates key secret s.pairing.hosted.now =
      some (request, oauthStates)) :
    SignInInvariant
      (SignInState.setCallback { s with oauthStates := oauthStates } key
        (some (.completing request)),
      { h with tickets := .redeemed key secret request s.pairing.hosted.now :: h.tickets }) := by
  have hsubset := List.subset_cons_self
    (TicketEvent.redeemed key secret request s.pairing.hosted.now) h.tickets
  have hstates := hinv.states.redeem hredeem
  have hfresh : key ∉ h.captures.map Capture.stateHash := by
    intro hmem
    obtain ⟨c, hc, rfl⟩ := List.mem_map.mp hmem
    obtain ⟨request', hredeemed⟩ := hinv.captured c hc
    exact (List.nodup_cons.mp hstates.one_redemption).1 hredeemed.key_mem
  refine
    { hinv with
      states := hstates
      paths := ?_
      phases := ?_
      captured := fun c hc => (hinv.captured c hc).imp fun _ hr => hr.extend hsubset
      backed := fun grant hgrant =>
        (hinv.backed grant hgrant).extend hsubset (List.Subset.refl _) }
  · intro k secret' request' moment hmem
    rcases List.mem_cons.mp hmem with heq | hold
    · cases heq
    · exact hinv.paths k secret' request' moment hold
  · refine phases_setCallback (s := { s with oauthStates := oauthStates }) ?_
      ⟨⟨secret, s.pairing.hosted.now, List.mem_cons_self⟩, hfresh⟩
    intro k phase hk
    exact (hinv.phases k phase hk).extend hsubset (List.Subset.refl _) id

theorem invariant_captured
    {c : Capture} {request : SignInRequest}
    (hinv : SignInInvariant (s, h))
    (hphase : s.callbacks c.stateHash = some (.capturing request c.githubUserId)) :
    SignInInvariant (s.setCallback c.stateHash (some (.deciding request c.assertion)),
      { h with captures := c :: h.captures }) := by
  obtain ⟨hredeemed, hfresh⟩ := hinv.phases _ _ hphase
  have hsubset := List.subset_cons_self c h.captures
  refine
    { hinv with
      phases := ?_
      one_capture := List.nodup_cons.mpr ⟨hfresh, hinv.one_capture⟩
      captured := ?_
      issued := fun assertion hmem =>
        (hinv.issued assertion hmem).imp fun _ hcaptured => hcaptured.extend hsubset
      backed := fun grant hgrant =>
        (hinv.backed grant hgrant).extend (List.Subset.refl _) hsubset }
  · intro k phase hk
    by_cases hkey : k = c.stateHash
    · subst hkey
      rw [SignInState.callbacks_setCallback_self] at hk
      cases hk
      exact ⟨hredeemed, c, List.mem_cons_self, rfl, rfl⟩
    · rw [SignInState.callbacks_setCallback_of_ne hkey] at hk
      refine (hinv.phases k phase hk).extend (List.Subset.refl _) hsubset ?_
      intro hnot hmem
      exact hnot ((List.mem_cons.mp hmem).resolve_left hkey)
  · intro c' hc'
    rcases List.mem_cons.mp hc' with rfl | hold
    · exact ⟨request, hredeemed⟩
    · exact hinv.captured c' hold

/-- The clock does not go back in a step of the pairing. -/
theorem pairingStep_now_le
    (s : PairingState) (a : PairingAction) :
    s.hosted.now ≤ (pairingStep hashRunnerCredential s a).hosted.now := by
  have hchange := pairingStep_change hashRunnerCredential s a
  generalize pairingStep hashRunnerCredential s a = s' at hchange ⊢
  generalize pairingEvent hashRunnerCredential s a = event at hchange
  cases hchange with
  | unchanged => exact le_rfl
  | created hinsert => exact le_rfl
  | approved happroves => rw [happroves.hosted]
  | exchanged hexchanges => rw [hexchanges.hosted]
  | elsewhere hchange hnow hinstalled => exact hnow

/-- Only an approval leaves the event of one. -/
theorem not_approved_of_elsewhere
    {s : PairingState} {a : PairingAction} {codeHash : String}
    {access : VerifiedInstallationAccess} {ids : List Uuid}
    (ha : a.ofApproval = false) :
    pairingEvent hashRunnerCredential s a ≠ some (.approved codeHash access ids) := by
  intro hevent
  have hchange := pairingStep_change hashRunnerCredential s a
  rw [hevent] at hchange
  generalize pairingStep hashRunnerCredential s a = s' at hchange
  cases hchange with
  | approved happroves => cases ha

theorem approved_of_event
    {s : PairingState} {codeHash codeHash' : String} {access access' : VerifiedInstallationAccess}
    {repositoryIds : List Int} {draw : Nat → Uuid} {ids : List Uuid}
    (hevent : pairingEvent hashRunnerCredential s
      (.approvePairingByHash codeHash access repositoryIds draw) =
        some (.approved codeHash' access' ids)) :
    codeHash = codeHash' ∧ access = access' := by
  have hchange := pairingStep_change hashRunnerCredential s
    (.approvePairingByHash codeHash access repositoryIds draw)
  rw [hevent] at hchange
  generalize pairingStep hashRunnerCredential s
    (.approvePairingByHash codeHash access repositoryIds draw) = s' at hchange
  cases hchange with
  | approved happroves => exact ⟨rfl, rfl⟩

theorem invariant_elsewhere
    {a : PairingAction}
    (hinv : SignInInvariant (s, h))
    (ha : a.ofApproval = false) :
    SignInInvariant ({ s with pairing := pairingStep hashRunnerCredential s.pairing a },
      { h with pairing := noteEvent hashRunnerCredential h.pairing s.pairing a }) := by
  refine
    { hinv with
      pairing := safe_step hinv.pairing hinv.recorded a
      recorded := recorded_step hinv.recorded a
      states := hinv.states.later (pairingStep_now_le s.pairing a)
      granted := ?_ }
  intro codeHash access ids hmem
  rcases List.mem_append.mp hmem with hnew | hold
  · exact absurd (Option.mem_toList.mp hnew) (not_approved_of_elsewhere ha)
  · exact hinv.granted codeHash access ids hold

/-- Whoever asks for an approval is backed by what happened. -/
theorem Grant.Asked.backed
    {grant : Grant}
    (hasked : grant.Asked s)
    (hinv : SignInInvariant (s, h)) :
    h.Backs grant := by
  rcases hasked with ⟨hnone, hissued⟩ | ⟨stateHash, request, hsome, hphase, hcode, hsole⟩
  · obtain ⟨stateHash, hcaptured⟩ := hinv.issued _ hissued
    refine ⟨stateHash, hcaptured, ?_⟩
    intro callback hcallback
    rw [hnone] at hcallback
    cases hcallback
  · obtain ⟨hredeemed, hcaptured⟩ := hinv.phases _ _ hphase
    refine ⟨stateHash, hcaptured, ?_⟩
    intro callback hcallback
    rw [hsome] at hcallback
    cases hcallback
    exact ⟨rfl, hsole, request, hredeemed, hcode⟩

theorem invariant_approved
    {grant : Grant} {callbacks : String → Option CallbackPhase}
    (hinv : SignInInvariant (s, h))
    (hcallbacks : CallbacksDecided s.callbacks callbacks)
    (hproved : grant.Proved)
    (hasked : grant.Asked s)
    (repositoryIds : List Int) (draw : Nat → Uuid) :
    SignInInvariant
      ({ s with
          pairing := pairingStep hashRunnerCredential s.pairing
            (.approvePairingByHash grant.codeHash grant.access repositoryIds draw)
          callbacks := callbacks },
        noteApproval hashRunnerCredential h s.pairing grant repositoryIds draw) := by
  have hgrants : ∀ grant' ∈ (noteApproval hashRunnerCredential h s.pairing grant repositoryIds
      draw).grants, grant' = grant ∨ grant' ∈ h.grants := by
    intro grant' hmem
    rcases List.mem_append.mp hmem with hnew | hold
    · obtain ⟨event, _, heq⟩ := Option.map_eq_some_iff.mp (Option.mem_toList.mp hnew)
      exact .inl heq.symm
    · exact .inr hold
  refine
    { hinv with
      pairing := safe_step hinv.pairing hinv.recorded
        (.approvePairingByHash grant.codeHash grant.access repositoryIds draw)
      recorded := recorded_step hinv.recorded
        (.approvePairingByHash grant.codeHash grant.access repositoryIds draw)
      states := hinv.states.later (pairingStep_now_le s.pairing _)
      phases := phases_decided hinv.phases hcallbacks
      proved := ?_
      backed := ?_
      granted := ?_ }
  · intro grant' hmem
    rcases hgrants grant' hmem with rfl | hold
    · exact hproved
    · exact hinv.proved grant' hold
  · intro grant' hmem
    rcases hgrants grant' hmem with rfl | hold
    · have hbacked : h.Backs grant' := hasked.backed hinv
      exact hbacked
    · exact hinv.backed grant' hold
  · intro codeHash access ids hmem
    rcases List.mem_append.mp hmem with hnew | hold
    · have hevent := Option.mem_toList.mp hnew
      obtain ⟨hcode, haccess⟩ := approved_of_event hevent
      refine ⟨grant, List.mem_append_left _ ?_, hcode, haccess⟩
      exact Option.mem_toList.mpr (Option.map_eq_some_iff.mpr ⟨_, hevent, rfl⟩)
    · obtain ⟨grant', hgrant', hsame⟩ := hinv.granted codeHash access ids hold
      exact ⟨grant', List.mem_append_right _ hgrant', hsame⟩

/-- The invariant is kept by every step. -/
theorem invariant_step
    {x : SignInState × SignInHistory}
    (hinv : SignInInvariant x) (a : SignInAction) :
    SignInInvariant
      (withHistory (signInStep hashRunnerCredential) (noteSignIn hashRunnerCredential) x a) := by
  obtain ⟨s, h⟩ := x
  have hchange := signInStep_change hashRunnerCredential s h a
  unfold withHistory
  generalize signInStep hashRunnerCredential s a = s' at hchange ⊢
  generalize noteSignIn hashRunnerCredential h s a = h' at hchange ⊢
  cases hchange with
  | unchanged => exact hinv
  | began hpath hissue => exact invariant_began hinv hpath hissue
  | completed hredeem => exact invariant_completed hinv hredeem
  | verified hphase =>
      have hbefore : h.PhaseOf _ (.completing _) := hinv.phases _ _ hphase
      exact { hinv with phases := phases_setCallback hinv.phases ⟨hbefore.1, hbefore.2⟩ }
  | captured hphase => exact invariant_captured hinv hphase
  | @issued stateHash assertion hphase =>
      refine
        { hinv with
          phases := phases_decided hinv.phases (callbacksDecided_none s.callbacks stateHash)
          issued := ?_ }
      intro assertion' hmem
      rcases List.mem_cons.mp hmem with rfl | hold
      · exact ⟨stateHash, hinv.phases _ _ hphase⟩
      · exact hinv.issued assertion' hold
  | decided hcallbacks =>
      exact { hinv with phases := phases_decided hinv.phases hcallbacks }
  | approved grant repositoryIds draw hcallbacks hproved hasked =>
      exact invariant_approved hinv hcallbacks hproved hasked _ _
  | elsewhere ha => exact invariant_elsewhere hinv ha

end Invariant

theorem invariant_empty :
    SignInInvariant (.empty, .empty) := by
  refine ⟨safe_empty, recorded_empty, honestTickets_empty _ _, ?_, ?_, List.nodup_nil, ?_, ?_, ?_,
    ?_, ?_⟩
  · rintro key secret request moment ⟨⟩
  · rintro stateHash phase ⟨⟩
  · rintro c ⟨⟩
  · rintro assertion ⟨⟩
  · rintro grant ⟨⟩
  · rintro grant ⟨⟩
  · rintro codeHash access ids ⟨⟩

/-! ## Safety -/

/-- What is promised of a state with what led to it. -/
structure SignInSafe (x : SignInState × SignInHistory) : Prop where
  one_redemption : (x.2.tickets.filterMap TicketEvent.redeemedKey?).Nodup
  lawful_redemption : ∀ later earlier stateHash secretHash request moment,
    x.2.tickets = later ++ .redeemed stateHash secretHash request moment :: earlier →
      request.returnTo ∈ allowedReturnToPaths ∧
      ∃ begun, .issued stateHash secretHash request begun ∈ earlier ∧ begun ≤ moment ∧
        moment < begun + stateLifetime
  one_capture : (x.2.captures.map Capture.stateHash).Nodup
  lawful_capture : ∀ c ∈ x.2.captures, ∃ request, x.2.Redeemed c.stateHash request
  lawful_grant : ∀ grant ∈ x.2.grants, grant.Proved ∧ x.2.Backs grant
  lawful_approval : ∀ codeHash access ids, .approved codeHash access ids ∈ x.2.pairing →
    ∃ grant ∈ x.2.grants, grant.codeHash = codeHash ∧ grant.access = access
  pairing : PairingSafe (x.1.pairing, x.2.pairing)
  assigned : ∀ a ∈ x.1.pairing.hosted.repositoryAssignments.rows,
    ∃ c ∈ x.2.captures, ∃ row,
      x.1.pairing.hosted.repositories.find? a.repositoryId = some row ∧
      Listed c.listing row.installationId row.githubRepositoryId

/-- An assigned repository was listed to the user whose approval assigned it. -/
theorem SignInInvariant.assigned
    {x : SignInState × SignInHistory} {a : RepositoryAssignmentRow}
    (hinv : SignInInvariant x)
    (ha : a ∈ x.1.pairing.hosted.repositoryAssignments.rows) :
    ∃ c ∈ x.2.captures, ∃ row,
      x.1.pairing.hosted.repositories.find? a.repositoryId = some row ∧
      Listed c.listing row.installationId row.githubRepositoryId := by
  obtain ⟨codeHash, _, _, access, ids, _, happroved, _, row, hrow, hinstallation, hnamed⟩ :=
    hinv.pairing.assigned a ha
  obtain ⟨grant, hgrant, _, rfl⟩ := hinv.granted codeHash access ids happroved
  obtain ⟨_, ⟨c, hc, _, hassertion⟩, _⟩ := hinv.backed grant hgrant
  have hlisted := (hinv.proved grant hgrant).listed
  rw [← hassertion, ← hinstallation] at hlisted
  exact ⟨c, hc, row, hrow, Capture.listed hlisted hnamed⟩

theorem SignInInvariant.safe
    {x : SignInState × SignInHistory}
    (hinv : SignInInvariant x) :
    SignInSafe x := by
  refine ⟨hinv.states.one_redemption, ?_, hinv.one_capture, hinv.captured,
    fun grant hgrant => ⟨hinv.proved grant hgrant, hinv.backed grant hgrant⟩, hinv.granted,
    hinv.pairing, fun a ha => hinv.assigned ha⟩
  intro later earlier stateHash secretHash request moment hsplit
  obtain ⟨begun, hbegun, hle, hlive⟩ := hinv.states.lawful _ _ _ _ _ _ hsplit
  refine ⟨hinv.paths stateHash secretHash request begun ?_, begun, hbegun, hle, hlive⟩
  rw [hsplit]
  exact List.mem_append_right _ (List.mem_cons_of_mem _ hbegun)

/--
**Every run of sign-ins and approvals is safe.**  A state is redeemed once, by the secret it was
begun with, within ten minutes and for a path of the list; GitHub's listing is captured once for it;
an approval rests on an assertion so captured that is in time and gives the access, and one that
a callback gives is for the code of its state and for the only installation; and a repository
is assigned to a runner only when GitHub listed it, under its installation, to such a user.
-/
theorem sign_in_runs_safe
    (hashRunnerCredential : String → String) (actions : List SignInAction) :
    Throughout
      (withHistory (signInStep hashRunnerCredential) (noteSignIn hashRunnerCredential))
      SignInSafe (.empty, .empty) actions :=
  throughout_of_preserves (I := SignInInvariant) (fun _ a hinv => invariant_step hinv a)
    (fun _ hinv => hinv.safe) actions invariant_empty

end Hosted
end PrReviewer
