import PrReviewer.Runner.Watch

/-!
# Tokens that were refused

An acknowledgement that the control plane denies should not be sent again under the
same token: the result is kept as refused, and landed under the token of a later
claim.  The reason of a stored result is fixed when it is stored.  A result stored
because the network failed is acknowledged again under its token at every replay,
also after the control plane has denied it.

The theorem is about runs in which that does not happen, with what the control plane
promises of its tokens: it does not call a refused lease active, and it does not hand
out a token under which this runner has acknowledged before.
-/

namespace PrReviewer
namespace Runner

open Lib

/-- A job and the token of a lease on it. -/
abbrev Lease := Uuid × String

/-- What is remembered of the acknowledgements. -/
structure TokenMemory where
  sent : List Lease
  refused : List Lease
  handed : Option Lease
deriving DecidableEq, Repr

section Definitions

variable {codec : Codec} {ω : Type} (surroundings : Surroundings ω)

/-- `acknowledge` raises `JobProtocolDenied` at this response. -/
def deniesAcknowledgement (outcome : Outcome) : Bool :=
  match received decodeAcknowledge outcome with
  | .error .jobProtocolDenied => true
  | _ => false

/-- The lease a claim was answered with. -/
def handedOut (codec : Codec) (outcome : Outcome) : Option Lease :=
  match received (decodeClaim codec) outcome with
  | .ok (.envelope job) => some (job.jobId, job.leaseToken)
  | _ => none

/-- Remember the leases acknowledged, those refused, and the one just handed out. -/
def watchTokens (codec : Codec) (memory : TokenMemory) :
    Request → Outcome → TokenMemory
  | .claim _, outcome => { memory with handed := handedOut codec outcome }
  | .heartbeat _ _ _, _ => memory
  | .acknowledge _ jobId leaseToken _, outcome =>
      { sent := (jobId, leaseToken) :: memory.sent
        refused :=
          if deniesAcknowledgement outcome then (jobId, leaseToken) :: memory.refused
          else memory.refused
        handed := none }

/-- The lease of a stored acknowledgement. -/
def PendingRow.lease (row : PendingRow codec) : Lease :=
  (row.jobId, row.leaseToken)

def PendingAcknowledgement.lease (entry : PendingAcknowledgement) : Lease :=
  (entry.jobId, entry.leaseToken)

/-- Before a run only the leases of stored acknowledgements are known. -/
def initialTokens (w : RunnerState codec ω) : TokenMemory where
  sent := w.store.pending.rows.map PendingRow.lease
  refused := []
  handed := none

/-- The step acknowledges under this lease. -/
def DaemonOp.acknowledges (lease : Lease) : DaemonOp → Bool
  | .acknowledge _ jobId leaseToken _ => (jobId, leaseToken) = lease
  | _ => false

/-- The step is an acknowledgement under this lease, and it is denied. -/
def refuses (lease : Lease) (x : RunnerState codec ω × DaemonOp) : Bool :=
  match x.2 with
  | .acknowledge _ jobId leaseToken result =>
      (jobId, leaseToken) = lease ∧
        deniesAcknowledgement
          (surroundings.send (.acknowledge x.1.credential jobId leaseToken result)
            x.1.outside).1
  | _ => false

/-- The step is a claim, and it is answered with this lease. -/
def handsOut (lease : Lease) (x : RunnerState codec ω × DaemonOp) : Bool :=
  match x.2 with
  | .claim _ =>
      handedOut codec (surroundings.send (.claim x.1.credential) x.1.outside).1 = some lease
  | _ => false

/--
A refused lease is not acknowledged under again, and a stored result is landed under the
lease of a claim made after every refusal so far.
-/
structure RefusedNotReplayed (steps : List (RunnerState codec ω × DaemonOp)) : Prop where
  not_again :
    ∀ before x after lease, steps = before ++ x :: after →
      refuses surroundings lease x = true →
      ∀ y ∈ after, y.2.acknowledges lease = false
  landed :
    ∀ before x after jobId j t result, steps = before ++ x :: after →
      x.2 = .acknowledge (.land jobId) j t result →
      ∃ past y between, before = past ++ y :: between ∧
        handsOut surroundings (j, t) y = true ∧
        ∀ z ∈ between, ∀ lease, refuses surroundings lease z = false

/-- A result stored for a network failure waits under this lease. -/
def waitsUnreachable (store : LocalStore codec) (lease : Lease) : Prop :=
  ∃ row ∈ store.pending.rows, row.lease = lease ∧ row.reason = .networkUnreachable

/--
The condition on one step.  No acknowledgement of a replay is denied, and none of
`complete_job` while a result stored for a network failure waits under its lease; no
refused lease is called active, and no lease acknowledged under is handed out again.
-/
def TokensFresh (memory : TokenMemory) (w : RunnerState codec ω) : DaemonOp → Prop
  | .acknowledge .replay jobId leaseToken result =>
      deniesAcknowledgement
        (surroundings.send (.acknowledge w.credential jobId leaseToken result)
          w.outside).1 = false
  | .acknowledge .complete jobId leaseToken result =>
      deniesAcknowledgement
          (surroundings.send (.acknowledge w.credential jobId leaseToken result)
            w.outside).1 = true →
        ¬ waitsUnreachable w.store (jobId, leaseToken)
  | .heartbeat .recover jobId leaseToken =>
      received decodeHeartbeat
          (surroundings.send (.heartbeat w.credential jobId leaseToken) w.outside).1 =
        .ok .active →
      (jobId, leaseToken) ∉ memory.refused
  | .claim _ =>
      ∀ lease ∈ handedOut codec (surroundings.send (.claim w.credential) w.outside).1,
        lease ∉ memory.sent
  | _ => True

instance (store : LocalStore codec) (lease : Lease) :
    Decidable (waitsUnreachable store lease) :=
  inferInstanceAs
    (Decidable (∃ row ∈ store.pending.rows, row.lease = lease ∧
      row.reason = .networkUnreachable))

instance (memory : TokenMemory) (w : RunnerState codec ω) (op : DaemonOp) :
    Decidable (TokensFresh surroundings memory w op) := by
  unfold TokensFresh
  split <;> infer_instance

end Definitions

/-! ## The invariant -/

section Invariant

variable {codec : Codec} {ω : Type} {config : DaemonConfig} {surroundings : Surroundings ω}

/-- What holds of the store and the memory before every operation. -/
structure TokensKnown (w : RunnerState codec (ω × TokenMemory)) : Prop where
  stored_sent : ∀ row ∈ w.store.pending.rows, row.lease ∈ w.outside.2.sent
  waiting : ∀ lease, waitsUnreachable w.store lease → lease ∉ w.outside.2.refused
  refused_sent : ∀ lease ∈ w.outside.2.refused, lease ∈ w.outside.2.sent

/-- The leases were acknowledged under, and not refused. -/
def Spared (leases : List Lease) (w : RunnerState codec (ω × TokenMemory)) : Prop :=
  ∀ lease ∈ leases, lease ∈ w.outside.2.sent ∧ lease ∉ w.outside.2.refused

/-- What the operations guarantee beside the invariant. -/
def AcknowledgesUnrefused (memory : TokenMemory) (_ : RunnerState codec ω) : DaemonOp → Prop
  | .acknowledge site jobId leaseToken _ =>
      (jobId, leaseToken) ∉ memory.refused ∧
        ∀ j, site = .land j → memory.handed = some (jobId, leaseToken)
  | _ => True

/-- The judgement of this section. -/
abbrev TokenSafe
    {α : Type}
    (surroundings : Surroundings ω)
    (p : Daemon α)
    (Q : α → RunnerState codec (ω × TokenMemory) → Prop)
    (E : PyError → RunnerState codec (ω × TokenMemory) → Prop)
    (w : RunnerState codec (ω × TokenMemory)) :
    Prop :=
  Program.Safe (answer (surroundings.watched (watchTokens codec)))
    (fun w op => TokensFresh surroundings w.outside.2 w.forget op)
    (fun w op => TokensKnown w ∧ AcknowledgesUnrefused w.outside.2 w.forget op) p Q E w

/-- An invariant that only looks at the stored leases and the two lists. -/
theorem TokensKnown.of_same
    {w w' : RunnerState codec (ω × TokenMemory)}
    (h : TokensKnown w)
    (hstore : w'.store.pending = w.store.pending)
    (hsent : w'.outside.2.sent = w.outside.2.sent)
    (hrefused : w'.outside.2.refused = w.outside.2.refused) :
    TokensKnown w' := by
  obtain ⟨hstored, hwaiting, hsubset⟩ := h
  refine ⟨?_, ?_, ?_⟩
  · rw [hstore, hsent]
    exact hstored
  · unfold waitsUnreachable at hwaiting ⊢
    rw [hstore, hrefused]
    exact hwaiting
  · rw [hsent, hrefused]
    exact hsubset

/-- Rows of the store may go, or keep their lease and reason. -/
theorem TokensKnown.of_fewer
    {w w' : RunnerState codec (ω × TokenMemory)}
    (h : TokensKnown w)
    (hrows : ∀ row' ∈ w'.store.pending.rows, ∃ row ∈ w.store.pending.rows,
      row.lease = row'.lease ∧ row.reason = row'.reason)
    (hmemory : w'.outside.2 = w.outside.2) :
    TokensKnown w' := by
  refine ⟨?_, ?_, ?_⟩
  · intro row' hrow'
    obtain ⟨row, hrow, hlease, _⟩ := hrows row' hrow'
    rw [hmemory, ← hlease]
    exact h.stored_sent row hrow
  · rintro lease ⟨row', hrow', hlease', hreason'⟩
    obtain ⟨row, hrow, hlease, hreason⟩ := hrows row' hrow'
    rw [hmemory]
    exact h.waiting lease ⟨row, hrow, hlease.trans hlease', hreason.trans hreason'⟩
  · rw [hmemory]
    exact h.refused_sent

/-- The operations that neither acknowledge nor store a result. -/
def DaemonOp.calm : DaemonOp → Bool
  | .acknowledge _ _ _ _ => false
  | .store (.recordPending _ _ _ _) => false
  | _ => true

/-- The two lists are as they were, and the invariant holds. -/
structure SameTokens (w w' : RunnerState codec (ω × TokenMemory)) : Prop where
  known : TokensKnown w'
  sent : w'.outside.2.sent = w.outside.2.sent
  refused : w'.outside.2.refused = w.outside.2.refused

theorem SameTokens.spared
    {w w' : RunnerState codec (ω × TokenMemory)} {leases : List Lease}
    (h : SameTokens w w')
    (hspared : Spared leases w) :
    Spared leases w' := by
  intro lease hlease
  rw [h.sent, h.refused]
  exact hspared lease hlease

theorem resolve_tokensKnown
    {w w' : RunnerState codec (ω × TokenMemory)} {entryId : Nat}
    (h : TokensKnown w)
    (hstore : w'.store = w.store.resolve entryId)
    (hmemory : w'.outside.2 = w.outside.2) :
    TokensKnown w' := by
  refine h.of_fewer ?_ hmemory
  intro row hrow
  rw [hstore] at hrow
  exact ⟨row, (List.mem_filter.mp hrow).1, rfl, rfl⟩

theorem bumpAttempt_tokensKnown
    {w w' : RunnerState codec (ω × TokenMemory)} {entryId : Nat}
    (h : TokensKnown w)
    (hstore : w'.store = w.store.bumpAttempt entryId)
    (hmemory : w'.outside.2 = w.outside.2) :
    TokensKnown w' := by
  refine h.of_fewer ?_ hmemory
  intro row hrow
  rw [hstore] at hrow
  obtain ⟨old, hold, _, hjob, htoken, hreason⟩ := LocalStore.of_mem_bumpAttempt hrow
  refine ⟨old, hold, ?_, hreason⟩
  unfold PendingRow.lease
  rw [hjob, htoken]

theorem answer_calm
    {op : DaemonOp}
    (hop : op.calm = true)
    {w : RunnerState codec (ω × TokenMemory)}
    (h : TokensKnown w) :
    SameTokens w (answer (surroundings.watched (watchTokens codec)) op w).2 := by
  have hlists :
      (answer (surroundings.watched (watchTokens codec)) op w).2.outside.2.sent =
          w.outside.2.sent ∧
        (answer (surroundings.watched (watchTokens codec)) op w).2.outside.2.refused =
          w.outside.2.refused := by
    rw [answer_memory]
    cases op with
    | acknowledge site jobId leaseToken result => cases hop
    | _ => exact ⟨rfl, rfl⟩
  refine ⟨?_, hlists.1, hlists.2⟩
  cases op with
  | acknowledge site jobId leaseToken result => cases hop
  | store op =>
      rcases answer_store_cases (surroundings.watched (watchTokens codec)) op w with
        ⟨result, store, _, happly, hanswer⟩ | ⟨e, hanswer⟩
      · rw [hanswer]
        cases op with
        | recordPending jobId leaseToken pendingResult reason => cases hop
        | resolve entryId =>
            cases happly
            exact resolve_tokensKnown h rfl rfl
        | bumpAttempt entryId =>
            cases happly
            exact bumpAttempt_tokensKnown h rfl rfl
        | recordClaimed job =>
            simp only [applyStore] at happly
            split at happly
            · cases happly
              exact h.of_same rfl rfl rfl
            · cases happly
        | _ =>
            cases happly
            exact h.of_same rfl rfl rfl
      · rw [hanswer]
        exact h
  | _ => exact h.of_same rfl hlists.1 hlists.2

/-- A program of calm operations. -/
theorem tokenSafe_of_calm
    {α : Type} {p : Daemon α} {w : RunnerState codec (ω × TokenMemory)}
    (hp : Program.Only (fun op => op.calm = true) p)
    (h : TokensKnown w) :
    TokenSafe surroundings p (fun _ => SameTokens w) (fun _ => SameTokens w) w := by
  refine hp.safe ?_ ⟨h, rfl, rfl⟩
  intro w' op hop hw'
  refine ⟨⟨hw'.known, ?_⟩, fun _ => ?_⟩
  · cases op with
    | acknowledge site jobId leaseToken result => cases hop
    | _ => trivial
  · have hnext :
        SameTokens w' (answer (surroundings.watched (watchTokens codec)) op w').2 :=
      answer_calm hop hw'.known
    exact ⟨hnext.known, hnext.sent.trans hw'.sent, hnext.refused.trans hw'.refused⟩

/-! ## Acknowledgements -/

variable (surroundings) in
/-- The state after an acknowledgement under a lease. -/
theorem acknowledged_tokensKnown
    {w : RunnerState codec (ω × TokenMemory)}
    {jobId : Uuid} {leaseToken : String} (result : JobAcknowledgement)
    (h : TokensKnown w)
    (hfree :
      deniesAcknowledgement
          (surroundings.send (.acknowledge w.credential jobId leaseToken result)
            w.outside.1).1 = true →
        ¬ waitsUnreachable w.store (jobId, leaseToken)) :
    TokensKnown
      (w.post (surroundings.watched (watchTokens codec))
        (.acknowledge w.credential jobId leaseToken result)).2 := by
  refine ⟨?_, ?_, ?_⟩
  · intro row hrow
    exact List.mem_cons_of_mem _ (h.stored_sent row hrow)
  · intro lease hwaits
    have hbefore := h.waiting lease hwaits
    simp only [RunnerState.post, Surroundings.watched, watchTokens]
    split
    · next hdenied =>
        intro hmem
        rcases List.mem_cons.mp hmem with rfl | hmem
        · exact hfree hdenied hwaits
        · exact hbefore hmem
    · exact hbefore
  · intro lease hmem
    simp only [RunnerState.post, Surroundings.watched, watchTokens] at hmem ⊢
    split at hmem
    · rcases List.mem_cons.mp hmem with rfl | hmem
      · exact List.mem_cons_self
      · exact List.mem_cons_of_mem _ (h.refused_sent lease hmem)
    · exact List.mem_cons_of_mem _ (h.refused_sent lease hmem)

variable (surroundings) in
theorem acknowledged_spared
    {w : RunnerState codec (ω × TokenMemory)}
    {jobId : Uuid} {leaseToken : String} {leases : List Lease} (result : JobAcknowledgement)
    (h : Spared leases w)
    (hfree :
      deniesAcknowledgement
          (surroundings.send (.acknowledge w.credential jobId leaseToken result)
            w.outside.1).1 = true →
        (jobId, leaseToken) ∉ leases) :
    Spared leases
      (w.post (surroundings.watched (watchTokens codec))
        (.acknowledge w.credential jobId leaseToken result)).2 := by
  intro lease hlease
  obtain ⟨hsent, hrefused⟩ := h lease hlease
  refine ⟨List.mem_cons_of_mem _ hsent, ?_⟩
  simp only [RunnerState.post, Surroundings.watched, watchTokens]
  split
  · next hdenied =>
      intro hmem
      rcases List.mem_cons.mp hmem with rfl | hmem
      · exact hfree hdenied hlease
      · exact hrefused hmem
  · exact hrefused

/-- A result stored under a lease that was acknowledged under. -/
theorem recordPending_tokensKnown
    {w w' : RunnerState codec (ω × TokenMemory)}
    {jobId : Uuid} {leaseToken : String} {result : JobAcknowledgement}
    {reason : PendingAcknowledgementReason} {now : Nat}
    (h : TokensKnown w)
    (hsent : (jobId, leaseToken) ∈ w.outside.2.sent)
    (hreason : reason = .networkUnreachable → (jobId, leaseToken) ∉ w.outside.2.refused)
    (hstore : w'.store = w.store.recordPending jobId leaseToken result reason now)
    (hmemory : w'.outside.2 = w.outside.2) :
    TokensKnown w' := by
  refine ⟨?_, ?_, ?_⟩
  · intro row hrow
    rw [hstore, LocalStore.rows_recordPending] at hrow
    rw [hmemory]
    rcases List.mem_append.mp hrow with hrow | hnew
    · exact h.stored_sent row hrow
    · rw [List.mem_singleton] at hnew
      subst hnew
      exact hsent
  · rintro lease ⟨row, hrow, hlease, hunreachable⟩
    rw [hstore, LocalStore.rows_recordPending] at hrow
    rw [hmemory]
    rcases List.mem_append.mp hrow with hrow | hnew
    · exact h.waiting lease ⟨row, hrow, hlease, hunreachable⟩
    · rw [List.mem_singleton] at hnew
      subst hnew
      rw [← hlease]
      exact hreason hunreachable
  · rw [hmemory]
    exact h.refused_sent

/-- Storing a result, as an operation of the daemon. -/
theorem tokenSafe_recordPending
    {w : RunnerState codec (ω × TokenMemory)}
    {jobId : Uuid} {leaseToken : String} {result : JobAcknowledgement}
    {reason : PendingAcknowledgementReason}
    (h : TokensKnown w)
    (hsent : (jobId, leaseToken) ∈ w.outside.2.sent)
    (hreason : reason = .networkUnreachable → (jobId, leaseToken) ∉ w.outside.2.refused) :
    TokenSafe surroundings (askStore (.recordPending jobId leaseToken result reason))
      (fun _ => TokensKnown) (fun _ => TokensKnown) w := by
  refine safe_askStore_of ⟨h, trivial⟩ ?_ (fun _ => h)
  intro _ store _ _ happly
  cases happly
  exact recordPending_tokensKnown h hsent hreason rfl rfl

end Invariant

/-! ## The methods -/

section Methods

variable {codec : Codec} {ω : Type} {config : DaemonConfig} {surroundings : Surroundings ω}

/-- A program of calm operations refuses no lease that was spared. -/
theorem tokenSafe_spared_of_calm
    {α : Type} {p : Daemon α} {w : RunnerState codec (ω × TokenMemory)} {leases : List Lease}
    (hp : Program.Only (fun op => op.calm = true) p)
    (h : TokensKnown w)
    (hspared : Spared leases w) :
    TokenSafe surroundings p
      (fun _ w' => TokensKnown w' ∧ Spared leases w')
      (fun _ w' => TokensKnown w' ∧ Spared leases w') w := by
  refine (tokenSafe_of_calm hp h).mono ?_ ?_
  · intro _ w' hw'
    exact ⟨hw'.known, hw'.spared hspared⟩
  · intro _ w' hw'
    exact ⟨hw'.known, hw'.spared hspared⟩

theorem claimed_sameTokens
    {w : RunnerState codec (ω × TokenMemory)}
    (h : TokensKnown w) :
    SameTokens w
      (w.post (surroundings.watched (watchTokens codec)) (.claim w.credential)).2 :=
  ⟨h.of_same rfl rfl rfl, rfl, rfl⟩

/-- The lease of a claim that was answered with an envelope. -/
theorem handedOut_of_envelope
    {w : RunnerState codec (ω × TokenMemory)} {job : JobEnvelope}
    (h :
      received (decodeClaim codec)
          (w.post (surroundings.watched (watchTokens codec)) (.claim w.credential)).1 =
        .ok (.envelope job)) :
    handedOut codec (surroundings.send (.claim w.credential) w.outside.1).1 =
      some (job.jobId, job.leaseToken) := by
  have hsent :
      received (decodeClaim codec)
          (surroundings.send (.claim w.credential) w.outside.1).1 =
        .ok (.envelope job) := h
  unfold handedOut
  rw [hsent]

/-- The acknowledgement of a landing is under the lease its claim was answered with. -/
theorem tokenSafe_land_acknowledge
    {w : RunnerState codec (ω × TokenMemory)} {leases : List Lease}
    {jobId : Uuid} {job : JobEnvelope} {result : JobAcknowledgement}
    (h : TokensKnown w)
    (hspared : Spared leases w)
    (hhanded :
      handedOut codec (surroundings.send (.claim w.credential) w.outside.1).1 =
        some (job.jobId, job.leaseToken))
    (hnew : (job.jobId, job.leaseToken) ∉ w.outside.2.sent) :
    TokenSafe surroundings (clientAcknowledge (.land jobId) job.jobId job.leaseToken result)
      (fun _ w' => TokensKnown w' ∧ Spared leases w')
      (fun _ w' => TokensKnown w' ∧ Spared leases w')
      (w.post (surroundings.watched (watchTokens codec)) (.claim w.credential)).2 := by
  have hclaimed :
      SameTokens w
        (w.post (surroundings.watched (watchTokens codec)) (.claim w.credential)).2 :=
    claimed_sameTokens h
  -- no stored lease and no lease to spare is the new one
  have hunstored : ¬ waitsUnreachable w.store (job.jobId, job.leaseToken) := by
    rintro ⟨row, hrow, hlease, _⟩
    have hstored := h.stored_sent row hrow
    rw [hlease] at hstored
    exact hnew hstored
  have hafter :=
    acknowledged_tokensKnown surroundings result hclaimed.known (fun _ => hunstored)
  have hspared' :=
    acknowledged_spared surroundings result (hclaimed.spared hspared)
      (fun _ hmem => hnew (hspared _ hmem).1)
  unfold TokenSafe
  rw [safe_clientAcknowledge]
  refine ⟨⟨hclaimed.known, ?_, ?_⟩, fun _ => ?_⟩
  · intro hrefused
    exact hnew (h.refused_sent _ hrefused)
  · intro _ _
    exact hhanded
  · split
    · exact ⟨hafter, hspared'⟩
    · exact ⟨hafter, hspared'⟩

/--
Landing a result acknowledges at most under the lease its claim was answered with,
which is new, so the leases acknowledged under before are refused as little as before.
-/
theorem tokenSafe_landPendingResult
    {w : RunnerState codec (ω × TokenMemory)} {leases : List Lease}
    (jobId : Uuid) (result : JobAcknowledgement)
    (h : TokensKnown w)
    (hspared : Spared leases w) :
    TokenSafe surroundings (landPendingResult codec config jobId result)
      (fun _ w' => TokensKnown w' ∧ Spared leases w')
      (fun _ w' => TokensKnown w' ∧ Spared leases w') w := by
  have hclaimed : ∀ w₁ : RunnerState codec (ω × TokenMemory),
      TokensKnown w₁ ∧ Spared leases w₁ →
      TokensKnown
          (w₁.post (surroundings.watched (watchTokens codec)) (.claim w₁.credential)).2 ∧
        Spared leases
          (w₁.post (surroundings.watched (watchTokens codec)) (.claim w₁.credential)).2 := by
    rintro w₁ ⟨hknown, hspared₁⟩
    have hsame :
        SameTokens w₁
          (w₁.post (surroundings.watched (watchTokens codec)) (.claim w₁.credential)).2 :=
      claimed_sameTokens hknown
    exact ⟨hsame.known, hsame.spared hspared₁⟩
  refine safe_landPendingResult_of
    (R := fun w₁ => TokensKnown w₁ ∧ Spared leases w₁)
    (T := fun w₁ => TokensKnown w₁ ∧ Spared leases w₁)
    (tokenSafe_spared_of_calm (refreshCredential_only rfl (fun _ => rfl)) h hspared)
    (fun _ hw₁ => ⟨hw₁.1, trivial⟩) ?_ ?_ ?_ ?_ ?_ ?_
  · intro w₁ _ hw₁ _ _
    exact ⟨hclaimed w₁ hw₁, hclaimed w₁ hw₁⟩
  · intro w₁ hw₁ _ _
    exact hclaimed w₁ hw₁
  · intro w₁ reason hw₁ _ _
    exact tokenSafe_spared_of_calm (noteIfRevoked_only (by rfl) reason)
      (hclaimed w₁ hw₁).1 (hclaimed w₁ hw₁).2
  · intro w₁ job hw₁ hassumed hreceived _
    have hhanded := handedOut_of_envelope hreceived
    have hland :
        TokenSafe surroundings
          (clientAcknowledge (.land jobId) job.jobId job.leaseToken result)
          (fun _ w' => TokensKnown w' ∧ Spared leases w')
          (fun _ w' => TokensKnown w' ∧ Spared leases w')
          (w₁.post (surroundings.watched (watchTokens codec)) (.claim w₁.credential)).2 :=
      tokenSafe_land_acknowledge hw₁.1 hw₁.2 hhanded (hassumed _ hhanded)
    exact hland.mono (fun _ _ h => h) (fun _ _ h => ⟨h, h⟩)
  · intro w₁ job hw₁ _ _ _
    exact tokenSafe_spared_of_calm (only_askStore rfl) (hclaimed w₁ hw₁).1
      (hclaimed w₁ hw₁).2
  · rintro w₁ ⟨hknown, hspared₁⟩
    exact tokenSafe_spared_of_calm (markPendingTerminal_only rfl rfl (fun _ => rfl)) hknown
      hspared₁

theorem tokenSafe_completeJob
    {w : RunnerState codec (ω × TokenMemory)}
    (jobId : Uuid) (leaseToken : String) (result : JobAcknowledgement)
    (h : TokensKnown w)
    (hunrefused : (jobId, leaseToken) ∉ w.outside.2.refused) :
    TokenSafe surroundings (completeJob codec config jobId leaseToken result)
      (fun _ => TokensKnown) (fun _ => TokensKnown) w := by
  have hsent :
      (jobId, leaseToken) ∈
        (w.post (surroundings.watched (watchTokens codec))
          (.acknowledge w.credential jobId leaseToken result)).2.outside.2.sent :=
    List.mem_cons_self
  refine safe_completeJob_of (D := TokensKnown) ⟨h, hunrefused, ?_⟩ ?_ ?_ ?_ ?_ ?_
  · rintro j ⟨⟩
  · intro hassumed _
    exact (tokenSafe_of_calm (only_askStore rfl)
      (acknowledged_tokensKnown surroundings result h hassumed)).mono
      (fun _ _ hw' => hw'.known) (fun _ _ hw' => hw'.known)
  · intro hassumed _
    refine tokenSafe_recordPending
      (acknowledged_tokensKnown surroundings result h hassumed) hsent ?_
    rintro ⟨⟩
  · intro w₁ hw₁
    have hland :
        TokenSafe surroundings (landPendingResult codec config jobId result)
          (fun _ w' => TokensKnown w' ∧ Spared [] w')
          (fun _ w' => TokensKnown w' ∧ Spared [] w') w₁ := by
      apply tokenSafe_landPendingResult jobId result hw₁
      rintro lease ⟨⟩
    exact hland.mono (fun _ _ hw' => hw'.1) (fun _ _ hw' => hw'.1)
  · intro hassumed hlost
    have hundenied :
        deniesAcknowledgement
            (surroundings.send (.acknowledge w.credential jobId leaseToken result)
              w.outside.1).1 = false := by
      have hraised :
          received decodeAcknowledge
              (surroundings.send (.acknowledge w.credential jobId leaseToken result)
                w.outside.1).1 =
            .error .transportError := hlost
      unfold deniesAcknowledgement
      rw [hraised]
    refine tokenSafe_recordPending
      (acknowledged_tokensKnown surroundings result h hassumed) hsent ?_
    intro _
    simp only [RunnerState.post, Surroundings.watched, watchTokens, hundenied]
    exact hunrefused
  · intro _ hassumed
    exact acknowledged_tokensKnown surroundings result h hassumed

/-- The executor is asked, and what it returns is completed under an unrefused lease. -/
theorem tokenSafe_review_then_complete
    {w : RunnerState codec (ω × TokenMemory)}
    (job : JobEnvelope)
    (h : TokensKnown w)
    (hunrefused : (job.jobId, job.leaseToken) ∉ w.outside.2.refused) :
    TokenSafe surroundings
      (do
        let result ← review job
        completeJob codec config job.jobId job.leaseToken result)
      (fun _ => TokensKnown) (fun _ => TokensKnown) w := by
  unfold TokenSafe
  rw [Program.bind_eq, Program.safe_bind]
  have hcalm : Program.Only (fun op => op.calm = true) (review job) := by
    refine Program.only_bind (Program.only_perform rfl) ?_
    intro returned
    cases returned with
    | none => trivial
    | some result => trivial
  refine (tokenSafe_of_calm hcalm h).mono ?_ (fun _ _ hw' => hw'.known)
  intro result w' hw'
  apply tokenSafe_completeJob job.jobId job.leaseToken result hw'.known
  rw [hw'.refused]
  exact hunrefused

theorem tokenSafe_processOnce
    {w : RunnerState codec (ω × TokenMemory)}
    (h : TokensKnown w) :
    TokenSafe surroundings (processOnce codec config) (fun _ => TokensKnown)
      (fun _ => TokensKnown) w := by
  refine safe_processOnce_of (R := TokensKnown) ⟨h, trivial⟩ h ?_
    (fun _ hw₁ => ⟨hw₁, trivial⟩) ?_ ?_ ?_ ?_
  · intro _
    exact (tokenSafe_of_calm (refreshCredential_only rfl (fun _ => rfl)) h).mono
      (fun _ _ hw₁ => hw₁.known) (fun _ _ hw₁ => hw₁.known)
  · intro w₁ _ hw₁ _ _
    exact ⟨(claimed_sameTokens hw₁).known, (claimed_sameTokens hw₁).known⟩
  · intro w₁ hw₁ _ _
    exact (claimed_sameTokens hw₁).known
  · intro w₁ reason hw₁ _ _
    exact (tokenSafe_of_calm (noteIfRevoked_only (by rfl) reason)
      (claimed_sameTokens hw₁).known).mono
      (fun _ _ hw₂ => hw₂.known) (fun _ _ hw₂ => hw₂.known)
  · intro w₁ job hw₁ hassumed hreceived
    have hnew : (job.jobId, job.leaseToken) ∉ w₁.outside.2.sent :=
      hassumed _ (handedOut_of_envelope hreceived)
    refine safe_runClaimedJob_of
      (R := SameTokens
        (w₁.post (surroundings.watched (watchTokens codec)) (.claim w₁.credential)).2)
      ((tokenSafe_of_calm (only_askStore rfl) (claimed_sameTokens hw₁).known).mono
        (fun _ _ hw₂ => hw₂) (fun _ _ hw₂ => hw₂.known))
      ?_ (fun _ hw₂ => hw₂.known)
    intro w₂ hw₂ _
    apply tokenSafe_review_then_complete job hw₂.known
    rw [hw₂.refused]
    intro hrefused
    exact hnew (hw₁.refused_sent _ hrefused)

theorem tokenSafe_recoverJob
    {w : RunnerState codec (ω × TokenMemory)}
    (job : LocalJob)
    (h : TokensKnown w) :
    TokenSafe surroundings (recoverJob codec config job) (fun _ => TokensKnown)
      (fun _ => TokensKnown) w := by
  have hafter :
      TokensKnown
        (w.post (surroundings.watched (watchTokens codec))
          (.heartbeat w.credential job.jobId job.leaseToken)).2 :=
    h.of_same rfl rfl rfl
  refine safe_recoverJob_of ⟨h, trivial⟩ hafter (fun _ => hafter) ?_ ?_
  · intro _ _ _ _
    exact (tokenSafe_of_calm (only_askStore rfl) hafter).mono
      (fun _ _ hw' => hw'.known) (fun _ _ hw' => hw'.known)
  · intro hreceived _ hassumed
    exact tokenSafe_review_then_complete job.envelope hafter (hassumed hreceived)

theorem tokenSafe_recover
    {w : RunnerState codec (ω × TokenMemory)}
    (h : TokensKnown w) :
    TokenSafe surroundings (recover codec config) (fun _ => TokensKnown)
      (fun _ => TokensKnown) w := by
  unfold recover TokenSafe
  rw [Program.bind_eq, Program.safe_bind]
  refine (tokenSafe_of_calm (only_askStore rfl) h).mono ?_ (fun _ _ hw' => hw'.known)
  intro jobs w' hw'
  exact Program.safe_forEach (fun job _ w'' hw'' => tokenSafe_recoverJob job hw'') hw'.known

/-- The leases under which the entries still to come will be acknowledged. -/
def replayedLeases (entries : List PendingAcknowledgement) : List Lease :=
  (entries.filter (fun entry => entry.reason = .networkUnreachable)).map
    PendingAcknowledgement.lease

theorem mem_replayedLeases
    {entries : List PendingAcknowledgement} {lease : Lease} :
    lease ∈ replayedLeases entries ↔
      ∃ entry ∈ entries, entry.reason = .networkUnreachable ∧ entry.lease = lease := by
  unfold replayedLeases
  rw [List.mem_map]
  constructor
  · rintro ⟨entry, hentry, hlease⟩
    rw [List.mem_filter, decide_eq_true_eq] at hentry
    exact ⟨entry, hentry.1, hentry.2, hlease⟩
  · rintro ⟨entry, hentry, hreason, hlease⟩
    refine ⟨entry, ?_, hlease⟩
    rw [List.mem_filter, decide_eq_true_eq]
    exact ⟨hentry, hreason⟩

theorem tokenSafe_replayEntry
    {w : RunnerState codec (ω × TokenMemory)}
    (entry : PendingAcknowledgement) (rest : List PendingAcknowledgement)
    (h : TokensKnown w)
    (hspared : Spared (replayedLeases (entry :: rest)) w) :
    TokenSafe surroundings (replayEntry codec config entry)
      (fun _ w' => TokensKnown w' ∧ Spared (replayedLeases rest) w')
      (fun _ => TokensKnown) w := by
  have hrest : Spared (replayedLeases rest) w := by
    intro lease hlease
    obtain ⟨entry', hentry', hreason, hsame⟩ := mem_replayedLeases.mp hlease
    exact hspared lease
      (mem_replayedLeases.mpr ⟨entry', List.mem_cons_of_mem _ hentry', hreason, hsame⟩)
  have hafter :
      TokensFresh surroundings w.outside.2 w.forget
          (.acknowledge .replay entry.jobId entry.leaseToken entry.result) →
        TokensKnown
            (w.post (surroundings.watched (watchTokens codec))
              (.acknowledge w.credential entry.jobId entry.leaseToken entry.result)).2 ∧
          Spared (replayedLeases rest)
            (w.post (surroundings.watched (watchTokens codec))
              (.acknowledge w.credential entry.jobId entry.leaseToken entry.result)).2 := by
    intro hgranted
    have hundenied :
        deniesAcknowledgement
            (surroundings.send
              (.acknowledge w.credential entry.jobId entry.leaseToken entry.result)
              w.outside.1).1 ≠ true :=
      Bool.eq_false_iff.mp hgranted
    exact
      ⟨acknowledged_tokensKnown surroundings entry.result h
          (fun hdenied => absurd hdenied hundenied),
        acknowledged_spared surroundings entry.result hrest
          (fun hdenied => absurd hdenied hundenied)⟩
  refine safe_replayEntry_of
    (T := fun w₁ => TokensKnown w₁ ∧ Spared (replayedLeases rest) w₁)
    (B := fun w₁ => TokensKnown w₁ ∧ Spared (replayedLeases rest) w₁) ?_ ?_ ?_ ?_
  · intro _
    exact (tokenSafe_landPendingResult entry.jobId entry.result h hrest).mono
      (fun _ _ hw' => hw') (fun _ _ hw' => hw'.1)
  · intro hreason
    have hunreachable : entry.reason = .networkUnreachable := by
      cases hentry : entry.reason with
      | invalidOrExpired => exact absurd hentry hreason
      | networkUnreachable => rfl
    have hunrefused : entry.lease ∉ w.outside.2.refused :=
      (hspared entry.lease
        (mem_replayedLeases.mpr ⟨entry, List.mem_cons_self, hunreachable, rfl⟩)).2
    rw [safe_clientAcknowledge]
    refine ⟨⟨h, hunrefused, ?_⟩, fun hgranted => ?_⟩
    · rintro j ⟨⟩
    · split
      · exact hafter hgranted
      · exact ⟨(hafter hgranted).1, hafter hgranted⟩
  · rintro w₁ ⟨hknown, hspared₁⟩
    exact (tokenSafe_spared_of_calm
      (Program.only_bind (only_askStore rfl) (fun _ => only_askStore rfl)) hknown
      hspared₁).mono (fun _ _ hw' => hw') (fun _ _ hw' => hw'.1)
  · rintro w₁ ⟨hknown, hspared₁⟩
    exact (tokenSafe_spared_of_calm (only_askStore rfl) hknown hspared₁).mono
      (fun _ _ hw' => hw') (fun _ _ hw' => hw'.1)

theorem tokenSafe_replayPendingAcknowledgements
    {w : RunnerState codec (ω × TokenMemory)}
    (h : TokensKnown w) :
    TokenSafe surroundings (replayPendingAcknowledgements codec config)
      (fun _ => TokensKnown) (fun _ => TokensKnown) w := by
  unfold replayPendingAcknowledgements TokenSafe
  rw [Program.bind_eq, Program.safe_bind]
  refine safe_askStore_of ⟨h, trivial⟩ ?_ (fun _ => h)
  intro entries store _ _ happly
  cases happly
  refine Program.Safe.mono
    (Program.safe_forEach_rest
      (I := fun rest w' => TokensKnown w' ∧ Spared (replayedLeases rest) w') ?_ ?_)
    (fun _ _ hw' => hw'.1) (fun _ _ hw' => hw')
  · rintro entry rest w' ⟨hknown, hspared⟩
    exact tokenSafe_replayEntry entry rest hknown hspared
  · refine ⟨h.of_same rfl rfl rfl, ?_⟩
    intro lease hlease
    obtain ⟨entry, hentry, hreason, rfl⟩ := mem_replayedLeases.mp hlease
    obtain ⟨row, hrow, rfl⟩ := LocalStore.mem_listPending.mp hentry
    exact ⟨h.stored_sent row hrow, h.waiting row.lease ⟨row, hrow, rfl, hreason⟩⟩

theorem tokenSafe_daemonMethod
    (method : DaemonMethod)
    (w : RunnerState codec (ω × TokenMemory))
    (h : TokensKnown w) :
    TokenSafe surroundings (method.program codec config) (fun _ => TokensKnown)
      (fun _ => TokensKnown) w := by
  cases method with
  | processOnce => exact tokenSafe_processOnce h
  | replayPendingAcknowledgements => exact tokenSafe_replayPendingAcknowledgements h
  | start =>
      simp only [DaemonMethod.program, start, Program.bind_eq]
      unfold TokenSafe
      rw [Program.safe_bind]
      refine (tokenSafe_recover h).mono ?_ (fun _ _ hw' => hw')
      intro _ w' hw'
      exact tokenSafe_replayPendingAcknowledgements hw'

end Methods

/-! ## Runs -/

section Runs

variable {codec : Codec} {ω : Type} {surroundings : Surroundings ω}

/-- What is refused stays remembered. -/
theorem remember_refused_mono
    {lease : Lease} {memory : TokenMemory}
    (h : lease ∈ memory.refused)
    (x : RunnerState codec ω × DaemonOp) :
    lease ∈ (remember surroundings (watchTokens codec) memory x).refused := by
  obtain ⟨w, op⟩ := x
  cases op with
  | acknowledge site jobId leaseToken result =>
      simp only [remember, DaemonOp.request?, watchTokens]
      split
      · exact List.mem_cons_of_mem _ h
      · exact h
  | _ => exact h

theorem remembered_refused
    {past : List (RunnerState codec ω × DaemonOp)} {x : RunnerState codec ω × DaemonOp}
    {lease : Lease}
    (hx : x ∈ past)
    (hrefuses : refuses surroundings lease x = true)
    (memory : TokenMemory) :
    lease ∈ (remembered surroundings (watchTokens codec) memory past).refused := by
  obtain ⟨before, after, rfl⟩ := List.append_of_mem hx
  have hkept :
      ∀ (later : List (RunnerState codec ω × DaemonOp)) memory,
        lease ∈ memory.refused →
          lease ∈ (remembered surroundings (watchTokens codec) memory later).refused := by
    intro later
    induction later with
    | nil =>
        intro memory h
        exact h
    | cons y later ih =>
        intro memory h
        exact ih _ (remember_refused_mono h y)
  have hstep :
      ∀ memory, lease ∈ (remember surroundings (watchTokens codec) memory x).refused := by
    intro memory
    obtain ⟨w, op⟩ := x
    cases op with
    | acknowledge site jobId leaseToken result =>
        simp only [refuses, decide_eq_true_eq] at hrefuses
        obtain ⟨rfl, hdenied⟩ := hrefuses
        simp only [remember, DaemonOp.request?, watchTokens, hdenied, if_true]
        exact List.mem_cons_self
    | _ => cases hrefuses
  rw [remembered_append]
  exact hkept after _ (hstep _)

/-- The lease in hand was handed out by a claim, and nothing was refused since. -/
theorem remembered_handed
    {past : List (RunnerState codec ω × DaemonOp)} {lease : Lease} {memory : TokenMemory}
    (hnone : memory.handed = none)
    (h : (remembered surroundings (watchTokens codec) memory past).handed = some lease) :
    ∃ before y between, past = before ++ y :: between ∧
      handsOut surroundings lease y = true ∧
      ∀ z ∈ between, ∀ lease', refuses surroundings lease' z = false := by
  induction past using List.reverseRecOn with
  | nil =>
      rw [show remembered surroundings (watchTokens codec) memory [] = memory from rfl,
        hnone] at h
      cases h
  | append_singleton past x ih =>
      rw [remembered_append] at h
      obtain ⟨w, op⟩ := x
      have hcalm :
          (∀ lease', refuses surroundings lease' (w, op) = false) →
          (remembered surroundings (watchTokens codec) memory past).handed = some lease →
          ∃ before y between, past ++ [(w, op)] = before ++ y :: between ∧
            handsOut surroundings lease y = true ∧
            ∀ z ∈ between, ∀ lease', refuses surroundings lease' z = false := by
        intro hquiet hbefore
        obtain ⟨before, y, between, rfl, hhands, hbetween⟩ := ih hbefore
        refine ⟨before, y, between ++ [(w, op)], by simp, hhands, ?_⟩
        intro z hz
        rcases List.mem_append.mp hz with hz | hz
        · exact hbetween z hz
        · rw [List.mem_singleton] at hz
          subst hz
          exact hquiet
      cases op with
      | claim site =>
          refine ⟨past, (w, .claim site), [], rfl, ?_, ?_⟩
          · simp only [handsOut, decide_eq_true_eq]
            exact h
          · rintro z ⟨⟩
      | acknowledge site jobId leaseToken result =>
          cases h
      | _ => exact hcalm (fun _ => rfl) h

/-- Nothing is refused, and everything stored is known, when a run begins. -/
theorem initialTokens_known
    (w : RunnerState codec ω) :
    TokensKnown (w.remembering (initialTokens w)) := by
  refine ⟨?_, ?_, ?_⟩
  · intro row hrow
    exact List.mem_map_of_mem hrow
  · rintro lease _ ⟨⟩
  · rintro lease ⟨⟩

/--
**Refused tokens are not replayed.**  In every run, with kills and restarts on the same
store, whatever the control plane answers: once an acknowledgement was denied no
acknowledgement is sent under its token again, and a stored result is landed under the
token of a claim made since, provided that every step meets the condition at what is
remembered of the steps before it.
-/
theorem refused_tokens_not_replayed
    (config : DaemonConfig) (surroundings : Surroundings ω)
    (w : RunnerState codec ω) (commands : List DaemonCommand)
    (hfresh :
      Along (remember surroundings (watchTokens codec))
        (fun memory x => TokensFresh surroundings memory x.1 x.2) (initialTokens w)
        (runSteps config surroundings w commands)) :
    RefusedNotReplayed surroundings (runSteps config surroundings w commands) := by
  rw [along_iff_split] at hfresh
  have hguaranteed :
      ∀ before x after, runSteps config surroundings w commands = before ++ x :: after →
        AcknowledgesUnrefused
          (remembered surroundings (watchTokens codec) (initialTokens w) before)
          x.1 x.2 := by
    intro before x after hsteps
    exact runSteps_of_watched (TokensFresh surroundings) AcknowledgesUnrefused
      tokenSafe_daemonMethod (fun _ _ _ h => h.of_same rfl rfl rfl)
      (initialTokens_known w) hfresh hsteps
  refine ⟨?_, ?_⟩
  · intro before x after lease hsteps hrefuses y hy
    obtain ⟨between, rest, rfl⟩ := List.append_of_mem hy
    have hsplit :
        runSteps config surroundings w commands = (before ++ x :: between) ++ y :: rest := by
      rw [hsteps, List.append_assoc, List.cons_append]
    have hx : x ∈ before ++ x :: between := List.mem_append_right _ List.mem_cons_self
    have hrefused := remembered_refused hx hrefuses (initialTokens w)
    have hy := hguaranteed _ _ _ hsplit
    obtain ⟨w', op⟩ := y
    cases op with
    | acknowledge site jobId leaseToken result =>
        simp only [DaemonOp.acknowledges, decide_eq_false_iff_not]
        rintro rfl
        exact hy.1 hrefused
    | _ => rfl
  · intro before x after jobId j t result hsteps hop
    have hx := hguaranteed before x after hsteps
    rw [hop] at hx
    exact remembered_handed rfl (hx.2 jobId rfl)

end Runs

/-! ## A denied result -/

/-- The control plane denies an acknowledgement. -/
def deniedAnswer : Outcome :=
  answered 409 (.obj [("detail", .str "invalid_or_expired")])

theorem second_ne : "second" ≠ "" := by decide

/-- The result of a poll is denied at once, and landed under the token of a later claim. -/
def deniedAtOnce : RunnerState strictCodec (List Outcome) :=
  freshProcess strictCodec
    [answered 200 firstEnvelope.dump, deniedAnswer,
      answered 200 (sampleEnvelope "second" second_ne).dump,
      answered 200 (.obj [("status", .str "ok")])]

theorem denied_result_lands_under_new_token :
    RefusedNotReplayed (scripted (some sampleResult))
      (runSteps sampleConfig (scripted (some sampleResult)) deniedAtOnce
        [.call .processOnce none, .restart "credential" true, .call .start none]) := by
  apply refused_tokens_not_replayed
  decide

/-- The acknowledgement of a poll is lost, and denied in both later processes. -/
def lostThenDenied : RunnerState strictCodec (List Outcome) :=
  freshProcess strictCodec
    [answered 200 firstEnvelope.dump, .transportError,
      answered 200 (.obj [("status", .str "invalid_or_expired")]), deniedAnswer, deniedAnswer]

/-- Two restarts after the poll. -/
def pollThenTwoRestarts : List DaemonCommand :=
  [.call .processOnce none, .restart "credential" true, .call .start none,
    .restart "credential" true, .call .start none]

/-- The denied token is replayed by the next process. -/
theorem denied_replay_sent_again :
    ¬ RefusedNotReplayed (scripted (some sampleResult))
        (runSteps sampleConfig (scripted (some sampleResult)) lostThenDenied
          pollThenTwoRestarts) := by
  intro hrefused
  have hagain :=
    hrefused.not_again
      ((runSteps sampleConfig (scripted (some sampleResult)) lostThenDenied
        pollThenTwoRestarts).take 10) _ _ (sampleJobId, "first") rfl (by decide)
  revert hagain
  decide

end Runner
end PrReviewer
