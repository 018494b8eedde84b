import PrReviewer.Runner.Daemon

/-!
# Rules for the daemon's programs

The rules below carry `Program.Safe` over to the daemon's own building blocks, so
that a proof about a method follows the method.  First come the single operations and
the requests, then the methods: a rule `safe_…_of` walks through its method once and
asks what is to be shown at each branch.
-/

namespace PrReviewer
namespace Runner

open Lib

section Rules

variable {codec : Codec} {ω : Type} {config : DaemonConfig} {surroundings : Surroundings ω}
variable {assumed guaranteed : RunnerState codec ω → DaemonOp → Prop}

theorem safe_ask
    {op : DaemonOp} {Q : op.Answer → RunnerState codec ω → Prop}
    {E : PyError → RunnerState codec ω → Prop} {w : RunnerState codec ω} :
    Program.Safe (answer surroundings) assumed guaranteed (ask op) Q E w ↔
      guaranteed w op ∧
        (assumed w op → Q (answer surroundings op w).1 (answer surroundings op w).2) := by
  rfl

theorem safe_askStore
    {op : StoreOp} {Q : op.Result → RunnerState codec ω → Prop}
    {E : PyError → RunnerState codec ω → Prop} {w : RunnerState codec ω} :
    Program.Safe (answer surroundings) assumed guaranteed (askStore op) Q E w ↔
      guaranteed w (.store op) ∧
        (assumed w (.store op) →
          match answer surroundings (.store op) w with
          | (.ok result, w') => Q result w'
          | (.error e, w') => E e w') := by
  unfold askStore
  rw [Program.bind_eq, Program.safe_bind, safe_ask]
  simp only [Program.safe_ofExcept]
  cases answer surroundings (.store op) w with
  | mk result w' =>
      cases result with
      | ok result => rfl
      | error e => rfl

/-- What an operation of the store leaves, when it leaves anything new. -/
theorem answer_store_cases
    (surroundings : Surroundings ω) (op : StoreOp) (w : RunnerState codec ω) :
    (∃ result store,
      w.onStoreThread = true ∧
      applyStore w.store (surroundings.clock w.outside).1 op = .ok (result, store) ∧
      answer surroundings (.store op) w =
        (.ok result,
          { w with store := store, outside := (surroundings.clock w.outside).2 })) ∨
      ∃ e, answer surroundings (.store op) w = (.error e, w) := by
  simp only [answer]
  by_cases hthread : w.onStoreThread = true
  · rw [if_pos hthread]
    cases happly : applyStore w.store (surroundings.clock w.outside).1 op with
    | ok answered => exact .inl ⟨answered.1, answered.2, hthread, rfl, rfl⟩
    | error e => exact .inr ⟨e, rfl⟩
  · rw [if_neg hthread]
    exact .inr ⟨.programmingError, rfl⟩

/-- A method of the store: it succeeds on its own thread, or raises and changes nothing. -/
theorem safe_askStore_of
    {op : StoreOp} {Q : op.Result → RunnerState codec ω → Prop}
    {E : PyError → RunnerState codec ω → Prop} {w : RunnerState codec ω}
    (hguaranteed : guaranteed w (.store op))
    (hok : ∀ result store, assumed w (.store op) → w.onStoreThread = true →
      applyStore w.store (surroundings.clock w.outside).1 op = .ok (result, store) →
        Q result { w with store := store, outside := (surroundings.clock w.outside).2 })
    (herror : ∀ e, E e w) :
    Program.Safe (answer surroundings) assumed guaranteed (askStore op) Q E w := by
  refine safe_askStore.mpr ⟨hguaranteed, fun hassumed => ?_⟩
  rcases answer_store_cases surroundings op w with
    ⟨result, store, hthread, happly, hanswer⟩ | ⟨e, hanswer⟩
  · rw [hanswer]
    exact hok result store hassumed hthread happly
  · rw [hanswer]
    exact herror e

/-- A method of the store on its own thread, with what it returns and leaves. -/
theorem safe_askStore_of_thread
    {op : StoreOp} {Q : op.Result → RunnerState codec ω → Prop}
    {E : PyError → RunnerState codec ω → Prop} {w : RunnerState codec ω}
    {result : op.Result} {store : LocalStore codec}
    (hthread : w.onStoreThread = true)
    (happly : applyStore w.store (surroundings.clock w.outside).1 op = .ok (result, store)) :
    Program.Safe (answer surroundings) assumed guaranteed (askStore op) Q E w ↔
      guaranteed w (.store op) ∧
        (assumed w (.store op) →
          Q result { w with store := store, outside := (surroundings.clock w.outside).2 }) := by
  have hanswer :
      answer surroundings (.store op) w =
        (.ok result,
          { w with store := store, outside := (surroundings.clock w.outside).2 }) := by
    simp only [answer]
    rw [if_pos hthread, happly]
  rw [safe_askStore, hanswer]

/-- `record_claimed` on the thread of the store raises only on an integer out of range. -/
theorem safe_recordClaimed_of_thread
    {job : JobEnvelope} {Q : Unit → RunnerState codec ω → Prop}
    {E : PyError → RunnerState codec ω → Prop} {w : RunnerState codec ω}
    (hthread : w.onStoreThread = true)
    (hguaranteed : guaranteed w (.store (.recordClaimed job)))
    (hfits : assumed w (.store (.recordClaimed job)) → fitsLocalJobs job = true →
      Q ()
        { w with
          store := w.store.recordClaimed job (surroundings.clock w.outside).1
          outside := (surroundings.clock w.outside).2 })
    (hoverflow : assumed w (.store (.recordClaimed job)) → fitsLocalJobs job = false →
      E .overflowError w) :
    Program.Safe (answer surroundings) assumed guaranteed (askStore (.recordClaimed job))
      Q E w := by
  refine safe_askStore.mpr ⟨hguaranteed, fun hassumed => ?_⟩
  simp only [answer, applyStore]
  rw [if_pos hthread]
  cases hjob : fitsLocalJobs job with
  | true =>
      rw [if_pos rfl]
      exact hfits hassumed hjob
  | false =>
      rw [if_neg (by decide)]
      exact hoverflow hassumed hjob

theorem safe_clientClaim
    {site : CallSite} {Q : ClaimAnswer → RunnerState codec ω → Prop}
    {E : PyError → RunnerState codec ω → Prop} {w : RunnerState codec ω} :
    Program.Safe (answer surroundings) assumed guaranteed (clientClaim codec site) Q E w ↔
      guaranteed w (.claim site) ∧
        (assumed w (.claim site) →
          match received (decodeClaim codec) (w.post surroundings (.claim w.credential)).1 with
          | .ok claimed => Q claimed (w.post surroundings (.claim w.credential)).2
          | .error e => E e (w.post surroundings (.claim w.credential)).2) := by
  unfold clientClaim
  rw [Program.bind_eq, Program.safe_bind, safe_ask]
  simp only [Program.safe_ofExcept, answer]
  cases received (decodeClaim codec) (w.post surroundings (.claim w.credential)).1 with
  | ok _ => rfl
  | error _ => rfl

theorem safe_clientHeartbeat
    {site : CallSite} {jobId : Uuid} {leaseToken : String}
    {Q : LeaseState → RunnerState codec ω → Prop}
    {E : PyError → RunnerState codec ω → Prop} {w : RunnerState codec ω} :
    Program.Safe (answer surroundings) assumed guaranteed
        (clientHeartbeat site jobId leaseToken) Q E w ↔
      guaranteed w (.heartbeat site jobId leaseToken) ∧
        (assumed w (.heartbeat site jobId leaseToken) →
          match received decodeHeartbeat
              (w.post surroundings (.heartbeat w.credential jobId leaseToken)).1 with
          | .ok lease =>
              Q lease (w.post surroundings (.heartbeat w.credential jobId leaseToken)).2
          | .error e =>
              E e (w.post surroundings (.heartbeat w.credential jobId leaseToken)).2) := by
  unfold clientHeartbeat
  rw [Program.bind_eq, Program.safe_bind, safe_ask]
  simp only [Program.safe_ofExcept, answer]
  cases received decodeHeartbeat
      (w.post surroundings (.heartbeat w.credential jobId leaseToken)).1 with
  | ok _ => rfl
  | error _ => rfl

theorem safe_clientAcknowledge
    {site : CallSite} {jobId : Uuid} {leaseToken : String} {result : JobAcknowledgement}
    {Q : Unit → RunnerState codec ω → Prop}
    {E : PyError → RunnerState codec ω → Prop} {w : RunnerState codec ω} :
    Program.Safe (answer surroundings) assumed guaranteed
        (clientAcknowledge site jobId leaseToken result) Q E w ↔
      guaranteed w (.acknowledge site jobId leaseToken result) ∧
        (assumed w (.acknowledge site jobId leaseToken result) →
          match received decodeAcknowledge
              (w.post surroundings (.acknowledge w.credential jobId leaseToken result)).1 with
          | .ok _ =>
              Q () (w.post surroundings (.acknowledge w.credential jobId leaseToken result)).2
          | .error e =>
              E e (w.post surroundings (.acknowledge w.credential jobId leaseToken result)).2) := by
  unfold clientAcknowledge
  rw [Program.bind_eq, Program.safe_bind, safe_ask]
  simp only [Program.safe_ofExcept, answer]
  cases received decodeAcknowledge
      (w.post surroundings (.acknowledge w.credential jobId leaseToken result)).1 with
  | ok _ => rfl
  | error _ => rfl

/-- The executor returns a result, or raises. -/
theorem safe_review
    {job : JobEnvelope} {Q : JobAcknowledgement → RunnerState codec ω → Prop}
    {E : PyError → RunnerState codec ω → Prop} {w : RunnerState codec ω} :
    Program.Safe (answer surroundings) assumed guaranteed (review job) Q E w ↔
      guaranteed w (.review job) ∧
        (assumed w (.review job) →
          match (answer surroundings (.review job) w).1 with
          | some result => Q result (answer surroundings (.review job) w).2
          | none => E .executorError (answer surroundings (.review job) w).2) := by
  unfold review
  rw [Program.bind_eq, Program.safe_bind, safe_ask]
  cases (answer surroundings (.review job) w).1 with
  | some _ => rfl
  | none => rfl

def DaemonOp.isStore : DaemonOp → Bool
  | .store _ => true
  | _ => false

variable (surroundings) in
/-- Operations other than those of the store leave it as it is. -/
theorem answer_of_isStore_false
    {op : DaemonOp}
    (hop : op.isStore = false)
    (w : RunnerState codec ω) :
    (answer surroundings op w).2.store = w.store ∧
      (answer surroundings op w).2.onStoreThread = w.onStoreThread := by
  cases op with
  | store op => cases hop
  | _ => exact ⟨rfl, rfl⟩

/-- The store that a method which succeeds leaves. -/
def StoreOp.leaves (store : LocalStore codec) (now : Nat) : StoreOp → LocalStore codec
  | .recordClaimed job => store.recordClaimed job now
  | .markAbandoned jobId => store.markAbandoned jobId
  | .markCompleted jobId => store.markCompleted jobId
  | .recordPending jobId leaseToken result reason =>
      store.recordPending jobId leaseToken result reason now
  | .resolve entryId => store.resolve entryId
  | .bumpAttempt entryId => store.bumpAttempt entryId
  | .listClaimed => store
  | .listPending => store

theorem applyStore_leaves
    {op : StoreOp} {store store' : LocalStore codec} {now : Nat} {result : op.Result}
    (h : applyStore store now op = .ok (result, store')) :
    store' = op.leaves store now := by
  cases op with
  | recordClaimed job =>
      simp only [applyStore] at h
      split at h
      · cases h
        rfl
      · cases h
  | _ =>
      cases h
      rfl

/-- The store after an operation is the store before it, or what the method leaves. -/
theorem answer_leaves
    (surroundings : Surroundings ω) (op : DaemonOp) (w : RunnerState codec ω) :
    (answer surroundings op w).2.store = w.store ∨
      ∃ storeOp now, op = .store storeOp ∧
        (answer surroundings op w).2.store = storeOp.leaves w.store now := by
  cases op with
  | store op =>
      rcases answer_store_cases surroundings op w with
        ⟨result, store, _, happly, hanswer⟩ | ⟨e, hanswer⟩
      · rw [hanswer]
        exact .inr ⟨op, _, rfl, applyStore_leaves happly⟩
      · rw [hanswer]
        exact .inl rfl
  | _ => exact .inl rfl

/-- The operations do not move keys between jobs. -/
theorem answer_tracks
    (surroundings : Surroundings ω) (op : DaemonOp) (w : RunnerState codec ω)
    {entry : PendingAcknowledgement}
    (h : w.store.Tracks entry) :
    (answer surroundings op w).2.store.Tracks entry := by
  rcases answer_leaves surroundings op w with hsame | ⟨storeOp, now, _, hleaves⟩
  · rw [hsame]
    exact h
  · rw [hleaves]
    cases storeOp with
    | recordPending jobId leaseToken result reason =>
        exact LocalStore.tracks_recordPending jobId leaseToken result reason now h
    | resolve entryId => exact LocalStore.tracks_resolve entryId h
    | bumpAttempt entryId => exact LocalStore.tracks_bumpAttempt entryId h
    | _ => exact h

/-- A program that never uses the store leaves it as it is. -/
theorem safe_of_without_store
    {α : Type} {p : Daemon α} {w : RunnerState codec ω}
    (h : Program.Only (fun op => op.isStore = false) p)
    (hguaranteed : ∀ w' op, op.isStore = false → w'.store = w.store →
      w'.onStoreThread = w.onStoreThread → guaranteed w' op) :
    Program.Safe (answer surroundings) assumed guaranteed p
      (fun _ w' => w'.store = w.store ∧ w'.onStoreThread = w.onStoreThread)
      (fun _ w' => w'.store = w.store ∧ w'.onStoreThread = w.onStoreThread) w := by
  refine h.safe
    (I := fun w' : RunnerState codec ω =>
      w'.store = w.store ∧ w'.onStoreThread = w.onStoreThread) ?_ ⟨rfl, rfl⟩
  intro w' op hop hw'
  refine ⟨hguaranteed w' op hop hw'.1 hw'.2, fun _ => ?_⟩
  obtain ⟨hstore, hthread⟩ := answer_of_isStore_false surroundings hop w'
  exact ⟨hstore.trans hw'.1, hthread.trans hw'.2⟩

theorem only_askStore
    {P : DaemonOp → Prop} {op : StoreOp}
    (h : P (.store op)) :
    Program.Only P (askStore op) :=
  Program.only_bind (Program.only_perform h) (fun _ => Program.only_ofExcept _)

theorem clientClaim_only
    {P : DaemonOp → Prop} {site : CallSite}
    (h : P (.claim site)) :
    Program.Only P (clientClaim codec site) :=
  Program.only_bind (Program.only_perform h) (fun _ => Program.only_ofExcept _)

theorem clientAcknowledge_only
    {P : DaemonOp → Prop} {site : CallSite} {jobId : Uuid} {leaseToken : String}
    {result : JobAcknowledgement}
    (h : P (.acknowledge site jobId leaseToken result)) :
    Program.Only P (clientAcknowledge site jobId leaseToken result) :=
  Program.only_bind (Program.only_perform h) (fun _ => Program.only_ofExcept _)

theorem exceptTransport_only
    {α : Type} {P : DaemonOp → Prop} {p : Daemon α}
    (h : Program.Only P p) :
    Program.Only P (exceptTransport p) := by
  refine Program.only_catching (Program.only_bind h (fun _ => trivial)) ?_
  intro e
  split
  · trivial
  · trivial

theorem exceptRetryable_only
    {P : DaemonOp → Prop} {p : Daemon Unit}
    (h : Program.Only P p) :
    Program.Only P (exceptRetryable p) := by
  refine Program.only_catching (Program.only_bind h (fun _ => trivial)) ?_
  intro e
  split
  · trivial
  · trivial

/-- The credential is refreshed by reading the secret store and setting it. -/
theorem refreshCredential_only
    {P : DaemonOp → Prop}
    (hsecret : P .secret)
    (hset : ∀ credential, P (.setCredential credential)) :
    Program.Only P (refreshCredential config) := by
  unfold refreshCredential
  split
  · refine Program.only_bind (Program.only_perform hsecret) ?_
    intro credential
    cases credential with
    | none => trivial
    | some credential => exact Program.only_perform (hset credential)
  · trivial

/-- What `_mark_pending_terminal` does, it does to the store. -/
theorem markPendingTerminal_only
    {P : DaemonOp → Prop} {jobId : Uuid}
    (hmark : P (.store (.markCompleted jobId)))
    (hlist : P (.store .listPending))
    (hresolve : ∀ entryId, P (.store (.resolve entryId))) :
    Program.Only P (markPendingTerminal jobId) := by
  refine Program.only_bind (only_askStore hmark) ?_
  intro _
  refine Program.only_bind (only_askStore hlist) ?_
  intro entries
  refine Program.only_forEach ?_
  intro entry _
  by_cases hentry : entry.jobId = jobId
  · rw [if_pos hentry]
    exact only_askStore (hresolve entry.id)
  · rw [if_neg hentry]
    trivial

theorem noteIfRevoked_only
    {P : DaemonOp → Prop}
    (hnote : P .noteRunnerRevoked)
    (reason : RunnerAuthDenialReason) :
    Program.Only P (noteIfRevoked reason) := by
  unfold noteIfRevoked
  split
  · exact Program.only_perform hnote
  · trivial

/-- The operations that landing the result of a job is made of. -/
def DaemonOp.landsResult (jobId : Uuid) : DaemonOp → Bool
  | .heartbeat _ _ _ => false
  | .review _ => false
  | .store (.markAbandoned _) => false
  | .store (.markCompleted j) => j = jobId
  | _ => true

theorem landPendingResult_only
    (jobId : Uuid) (result : JobAcknowledgement) :
    Program.Only (fun op => op.landsResult jobId = true)
      (landPendingResult codec config jobId result) := by
  refine Program.only_bind (refreshCredential_only rfl (fun _ => rfl)) ?_
  intro _
  refine Program.only_bind (exceptTransport_only (clientClaim_only rfl)) ?_
  intro claimed
  have hterminal :
      Program.Only (fun op => op.landsResult jobId = true) (markPendingTerminal jobId) :=
    markPendingTerminal_only (decide_eq_true rfl) rfl (fun _ => rfl)
  cases claimed with
  | none => trivial
  | some claimed =>
      cases claimed with
      | noJob => exact hterminal
      | denied reason =>
          exact Program.only_bind (noteIfRevoked_only (by rfl) reason) (fun _ => hterminal)
      | envelope job =>
          simp only
          split
          · refine Program.only_bind
              (exceptRetryable_only (clientAcknowledge_only rfl)) ?_
            intro landed
            cases landed with
            | true => exact hterminal
            | false => trivial
          · exact Program.only_bind (only_askStore rfl) (fun _ => hterminal)

theorem completeJob_only
    (jobId : Uuid) (leaseToken : String) (result : JobAcknowledgement) :
    Program.Only (fun op => op.landsResult jobId = true)
      (completeJob codec config jobId leaseToken result) := by
  refine Program.only_bind ?_ ?_
  · exact Program.only_catching
      (Program.only_bind (clientAcknowledge_only rfl) (fun _ => trivial))
      (fun _ => trivial)
  · intro failure
    cases failure with
    | none => exact only_askStore (decide_eq_true rfl)
    | some e =>
        cases e with
        | jobProtocolDenied =>
            exact Program.only_bind (only_askStore rfl)
              (fun _ => landPendingResult_only jobId result)
        | transportError =>
            exact Program.only_bind (only_askStore rfl) (fun _ => trivial)
        | _ => trivial

/-- A `try` block that catches transport errors. -/
theorem safe_exceptTransport
    {α : Type} {p : Daemon α} {Q : Option α → RunnerState codec ω → Prop}
    {E : PyError → RunnerState codec ω → Prop} {w : RunnerState codec ω} :
    Program.Safe (answer surroundings) assumed guaranteed (exceptTransport p) Q E w ↔
      Program.Safe (answer surroundings) assumed guaranteed p
        (fun a w' => Q (some a) w')
        (fun e w' => if e = .transportError then Q none w' else E e w') w :=
  Program.safe_catching_if

/-- A `try` block that catches the retryable acknowledgement errors. -/
theorem safe_exceptRetryable
    {p : Daemon Unit} {Q : Bool → RunnerState codec ω → Prop}
    {E : PyError → RunnerState codec ω → Prop} {w : RunnerState codec ω} :
    Program.Safe (answer surroundings) assumed guaranteed (exceptRetryable p) Q E w ↔
      Program.Safe (answer surroundings) assumed guaranteed p
        (fun _ w' => Q true w')
        (fun e w' => if retryable e = true then Q false w' else E e w') w :=
  Program.safe_catching_if

/--
One job of the recovery: its row is abandoned on a lease that is not active, or it is
resumed on an active one, or nothing is done with it.
-/
theorem safe_recoverJob_of
    {job : LocalJob} {Q : Unit → RunnerState codec ω → Prop}
    {E : PyError → RunnerState codec ω → Prop} {w : RunnerState codec ω}
    (hheartbeat : guaranteed w (.heartbeat .recover job.jobId job.leaseToken))
    (hleft : Q () (w.post surroundings (.heartbeat w.credential job.jobId job.leaseToken)).2)
    (hraised : ∀ e,
      E e (w.post surroundings (.heartbeat w.credential job.jobId job.leaseToken)).2)
    (habandon : ∀ lease,
      received decodeHeartbeat
          (w.post surroundings (.heartbeat w.credential job.jobId job.leaseToken)).1 =
        .ok lease →
      lease ≠ .active → assumed w (.heartbeat .recover job.jobId job.leaseToken) →
      Program.Safe (answer surroundings) assumed guaranteed
        (askStore (.markAbandoned job.jobId)) Q E
        (w.post surroundings (.heartbeat w.credential job.jobId job.leaseToken)).2)
    (hresume :
      received decodeHeartbeat
          (w.post surroundings (.heartbeat w.credential job.jobId job.leaseToken)).1 =
        .ok .active →
      config.hasReview = true → assumed w (.heartbeat .recover job.jobId job.leaseToken) →
      Program.Safe (answer surroundings) assumed guaranteed
        (do
          let result ← review job.envelope
          completeJob codec config job.envelope.jobId job.envelope.leaseToken result) Q E
        (w.post surroundings (.heartbeat w.credential job.jobId job.leaseToken)).2) :
    Program.Safe (answer surroundings) assumed guaranteed (recoverJob codec config job) Q E
      w := by
  unfold recoverJob
  rw [Program.bind_eq, Program.safe_bind, safe_exceptTransport, safe_clientHeartbeat]
  refine ⟨hheartbeat, fun hassumed => ?_⟩
  cases hreceived :
      received decodeHeartbeat
        (w.post surroundings (.heartbeat w.credential job.jobId job.leaseToken)).1 with
  | error e =>
      simp only
      split
      · exact hleft
      · exact hraised e
  | ok lease =>
      cases lease with
      | invalidOrExpired => exact habandon _ hreceived (by rintro ⟨⟩) hassumed
      | cancelled => exact habandon _ hreceived (by rintro ⟨⟩) hassumed
      | active =>
          by_cases hreview : config.hasReview = true
          · simp only [hreview, if_true]
            exact hresume hreceived hreview hassumed
          · simp only [hreview]
            exact hleft

/--
The credential is refreshed and a claim sent, and the daemon goes on with the answer.
`R` holds when the claim is sent.
-/
theorem safe_refreshed_claim_of
    {site : CallSite} {next : Option ClaimAnswer → Daemon Unit}
    {R : RunnerState codec ω → Prop} {Q : Unit → RunnerState codec ω → Prop}
    {E : PyError → RunnerState codec ω → Prop} {w : RunnerState codec ω}
    (hrefresh :
      Program.Safe (answer surroundings) assumed guaranteed (refreshCredential config)
        (fun _ => R) E w)
    (hclaim : ∀ w₁, R w₁ → guaranteed w₁ (.claim site))
    (hfailed : ∀ w₁ e, R w₁ → assumed w₁ (.claim site) →
      received (decodeClaim codec) (w₁.post surroundings (.claim w₁.credential)).1 =
        .error e →
      E e (w₁.post surroundings (.claim w₁.credential)).2 ∧
        Program.Safe (answer surroundings) assumed guaranteed (next none) Q E
          (w₁.post surroundings (.claim w₁.credential)).2)
    (hanswered : ∀ w₁ claimed, R w₁ → assumed w₁ (.claim site) →
      received (decodeClaim codec) (w₁.post surroundings (.claim w₁.credential)).1 =
        .ok claimed →
      Program.Safe (answer surroundings) assumed guaranteed (next (some claimed)) Q E
        (w₁.post surroundings (.claim w₁.credential)).2) :
    Program.Safe (answer surroundings) assumed guaranteed
      (do
        refreshCredential config
        let claimed ← exceptTransport (clientClaim codec site)
        next claimed) Q E w := by
  simp only [Program.bind_eq]
  rw [Program.safe_bind]
  refine hrefresh.mono ?_ (fun _ _ h => h)
  intro _ w₁ hw₁
  rw [Program.safe_bind, safe_exceptTransport, safe_clientClaim]
  refine ⟨hclaim w₁ hw₁, fun hassumed => ?_⟩
  cases hreceived :
      received (decodeClaim codec) (w₁.post surroundings (.claim w₁.credential)).1 with
  | error e =>
      obtain ⟨hraised, hnone⟩ := hfailed w₁ e hw₁ hassumed hreceived
      simp only
      split
      · exact hnone
      · exact hraised
  | ok claimed => exact hanswered w₁ claimed hw₁ hassumed hreceived

/--
The landing of a stored result, by the answer to its claim.  `R` holds when the claim is
sent, and `T` when the job is to be marked terminal.
-/
theorem safe_landPendingResult_of
    {jobId : Uuid} {result : JobAcknowledgement} {R T : RunnerState codec ω → Prop}
    {Q : Unit → RunnerState codec ω → Prop} {E : PyError → RunnerState codec ω → Prop}
    {w : RunnerState codec ω}
    (hrefresh :
      Program.Safe (answer surroundings) assumed guaranteed (refreshCredential config)
        (fun _ => R) E w)
    (hclaim : ∀ w₁, R w₁ → guaranteed w₁ (.claim (.land jobId)))
    (hfailed : ∀ w₁ e, R w₁ → assumed w₁ (.claim (.land jobId)) →
      received (decodeClaim codec) (w₁.post surroundings (.claim w₁.credential)).1 =
        .error e →
      E e (w₁.post surroundings (.claim w₁.credential)).2 ∧
        Q () (w₁.post surroundings (.claim w₁.credential)).2)
    (hnoJob : ∀ w₁, R w₁ → assumed w₁ (.claim (.land jobId)) →
      received (decodeClaim codec) (w₁.post surroundings (.claim w₁.credential)).1 =
        .ok .noJob →
      T (w₁.post surroundings (.claim w₁.credential)).2)
    (hdenied : ∀ w₁ reason, R w₁ → assumed w₁ (.claim (.land jobId)) →
      received (decodeClaim codec) (w₁.post surroundings (.claim w₁.credential)).1 =
        .ok (.denied reason) →
      Program.Safe (answer surroundings) assumed guaranteed (noteIfRevoked reason)
        (fun _ => T) E (w₁.post surroundings (.claim w₁.credential)).2)
    (hland : ∀ w₁ job, R w₁ → assumed w₁ (.claim (.land jobId)) →
      received (decodeClaim codec) (w₁.post surroundings (.claim w₁.credential)).1 =
        .ok (.envelope job) →
      job.jobId = jobId →
      Program.Safe (answer surroundings) assumed guaranteed
        (clientAcknowledge (.land jobId) job.jobId job.leaseToken result)
        (fun _ => T) (fun e w' => E e w' ∧ Q () w')
        (w₁.post surroundings (.claim w₁.credential)).2)
    (hrecord : ∀ w₁ job, R w₁ → assumed w₁ (.claim (.land jobId)) →
      received (decodeClaim codec) (w₁.post surroundings (.claim w₁.credential)).1 =
        .ok (.envelope job) →
      job.jobId ≠ jobId →
      Program.Safe (answer surroundings) assumed guaranteed (askStore (.recordClaimed job))
        (fun _ => T) E (w₁.post surroundings (.claim w₁.credential)).2)
    (hterminal : ∀ w', T w' →
      Program.Safe (answer surroundings) assumed guaranteed (markPendingTerminal jobId)
        Q E w') :
    Program.Safe (answer surroundings) assumed guaranteed
      (landPendingResult codec config jobId result) Q E w := by
  refine safe_refreshed_claim_of hrefresh hclaim hfailed ?_
  intro w₁ claimed hw₁ hassumed hreceived
  cases claimed with
  | noJob => exact hterminal _ (hnoJob w₁ hw₁ hassumed hreceived)
  | denied reason =>
      simp only [Program.bind_eq]
      rw [Program.safe_bind]
      exact (hdenied w₁ reason hw₁ hassumed hreceived).mono
        (fun _ w' hw' => hterminal w' hw') (fun _ _ h => h)
  | envelope job =>
      by_cases hjob : job.jobId = jobId
      · simp only [hjob, if_true, Program.bind_eq]
        rw [Program.safe_bind, safe_exceptRetryable]
        have hacknowledge := hland w₁ job hw₁ hassumed hreceived hjob
        rw [hjob] at hacknowledge
        refine hacknowledge.mono (fun _ w' hw' => hterminal w' hw') ?_
        rintro e w' ⟨hraised, hkept⟩
        split
        · exact hkept
        · exact hraised
      · simp only [hjob, if_false, Program.bind_eq]
        rw [Program.safe_bind]
        exact (hrecord w₁ job hw₁ hassumed hreceived hjob).mono
          (fun _ w' hw' => hterminal w' hw') (fun _ _ h => h)

/--
`complete_job`, by the answer to its acknowledgement.  `D` holds when a denied result is
stored and about to be landed.
-/
theorem safe_completeJob_of
    {jobId : Uuid} {leaseToken : String} {result : JobAcknowledgement}
    {D : RunnerState codec ω → Prop} {Q : Unit → RunnerState codec ω → Prop}
    {E : PyError → RunnerState codec ω → Prop} {w : RunnerState codec ω}
    (hacknowledge : guaranteed w (.acknowledge .complete jobId leaseToken result))
    (haccepted : assumed w (.acknowledge .complete jobId leaseToken result) →
      received decodeAcknowledge
          (w.post surroundings (.acknowledge w.credential jobId leaseToken result)).1 =
        .ok () →
      Program.Safe (answer surroundings) assumed guaranteed (askStore (.markCompleted jobId))
        Q E (w.post surroundings (.acknowledge w.credential jobId leaseToken result)).2)
    (hdenied : assumed w (.acknowledge .complete jobId leaseToken result) →
      received decodeAcknowledge
          (w.post surroundings (.acknowledge w.credential jobId leaseToken result)).1 =
        .error .jobProtocolDenied →
      Program.Safe (answer surroundings) assumed guaranteed
        (askStore (.recordPending jobId leaseToken result .invalidOrExpired)) (fun _ => D) E
        (w.post surroundings (.acknowledge w.credential jobId leaseToken result)).2)
    (hland : ∀ w₁, D w₁ →
      Program.Safe (answer surroundings) assumed guaranteed
        (landPendingResult codec config jobId result) Q E w₁)
    (hunreachable : assumed w (.acknowledge .complete jobId leaseToken result) →
      received decodeAcknowledge
          (w.post surroundings (.acknowledge w.credential jobId leaseToken result)).1 =
        .error .transportError →
      Program.Safe (answer surroundings) assumed guaranteed
        (askStore (.recordPending jobId leaseToken result .networkUnreachable))
        (fun _ => E .transportError) E
        (w.post surroundings (.acknowledge w.credential jobId leaseToken result)).2)
    (hraised : ∀ e, assumed w (.acknowledge .complete jobId leaseToken result) →
      E e (w.post surroundings (.acknowledge w.credential jobId leaseToken result)).2) :
    Program.Safe (answer surroundings) assumed guaranteed
      (completeJob codec config jobId leaseToken result) Q E w := by
  unfold completeJob
  simp only [Program.bind_eq]
  rw [Program.safe_bind, Program.safe_catching, Program.safe_bind, safe_clientAcknowledge]
  refine ⟨hacknowledge, fun hassumed => ?_⟩
  cases hreceived :
      received decodeAcknowledge
        (w.post surroundings (.acknowledge w.credential jobId leaseToken result)).1 with
  | ok _ => exact haccepted hassumed hreceived
  | error e =>
      cases e with
      | jobProtocolDenied =>
          simp only [completeClauses, Program.bind_eq, Program.pure_eq, Program.safe_ret]
          rw [Program.safe_bind]
          exact (hdenied hassumed hreceived).mono (fun _ w₁ hw₁ => hland w₁ hw₁)
            (fun _ _ h => h)
      | transportError =>
          simp only [completeClauses, Program.bind_eq, Program.pure_eq, Program.safe_ret]
          rw [Program.safe_bind]
          exact (hunreachable hassumed hreceived).mono (fun _ _ h => h) (fun _ _ h => h)
      | _ => exact hraised _ hassumed

/-- A claimed job is recorded, and reviewed when there is an executor. -/
theorem safe_runClaimedJob_of
    {job : JobEnvelope} {R : RunnerState codec ω → Prop}
    {Q : Unit → RunnerState codec ω → Prop} {E : PyError → RunnerState codec ω → Prop}
    {w : RunnerState codec ω}
    (hrecord :
      Program.Safe (answer surroundings) assumed guaranteed (askStore (.recordClaimed job))
        (fun _ => R) E w)
    (hreview : ∀ w₁, R w₁ → config.hasReview = true →
      Program.Safe (answer surroundings) assumed guaranteed
        (do
          let result ← review job
          completeJob codec config job.jobId job.leaseToken result) Q E w₁)
    (hleft : ∀ w₁, R w₁ → Q () w₁) :
    Program.Safe (answer surroundings) assumed guaranteed (runClaimedJob codec config job)
      Q E w := by
  unfold runClaimedJob
  rw [Program.bind_eq, Program.safe_bind]
  refine hrecord.mono ?_ (fun _ _ h => h)
  intro _ w₁ hw₁
  by_cases hexecutor : config.hasReview = true
  · rw [if_pos hexecutor]
    exact hreview w₁ hw₁ hexecutor
  · rw [if_neg hexecutor]
    exact hleft w₁ hw₁

/--
One poll, by the answer to its claim.  `R` holds when the claim is sent, which it is while
the gate allows new work.
-/
theorem safe_processOnce_of
    {R : RunnerState codec ω → Prop} {Q : Unit → RunnerState codec ω → Prop}
    {E : PyError → RunnerState codec ω → Prop} {w : RunnerState codec ω}
    (hasked : guaranteed w .allowNewWork)
    (hstopped : Q () w)
    (hrefresh : w.gate.allowNewWork = true →
      Program.Safe (answer surroundings) assumed guaranteed (refreshCredential config)
        (fun _ => R) E w)
    (hclaim : ∀ w₁, R w₁ → guaranteed w₁ (.claim .poll))
    (hfailed : ∀ w₁ e, R w₁ → assumed w₁ (.claim .poll) →
      received (decodeClaim codec) (w₁.post surroundings (.claim w₁.credential)).1 =
        .error e →
      E e (w₁.post surroundings (.claim w₁.credential)).2 ∧
        Q () (w₁.post surroundings (.claim w₁.credential)).2)
    (hnoJob : ∀ w₁, R w₁ → assumed w₁ (.claim .poll) →
      received (decodeClaim codec) (w₁.post surroundings (.claim w₁.credential)).1 =
        .ok .noJob →
      Q () (w₁.post surroundings (.claim w₁.credential)).2)
    (hdenied : ∀ w₁ reason, R w₁ → assumed w₁ (.claim .poll) →
      received (decodeClaim codec) (w₁.post surroundings (.claim w₁.credential)).1 =
        .ok (.denied reason) →
      Program.Safe (answer surroundings) assumed guaranteed (noteIfRevoked reason) Q E
        (w₁.post surroundings (.claim w₁.credential)).2)
    (hrun : ∀ w₁ job, R w₁ → assumed w₁ (.claim .poll) →
      received (decodeClaim codec) (w₁.post surroundings (.claim w₁.credential)).1 =
        .ok (.envelope job) →
      Program.Safe (answer surroundings) assumed guaranteed (runClaimedJob codec config job)
        Q E (w₁.post surroundings (.claim w₁.credential)).2) :
    Program.Safe (answer surroundings) assumed guaranteed (processOnce codec config) Q E
      w := by
  unfold processOnce
  rw [Program.bind_eq, Program.safe_bind, safe_ask]
  refine ⟨hasked, fun _ => ?_⟩
  have hanswer : answer surroundings .allowNewWork w = (w.gate.allowNewWork, w) := by
    rfl
  rw [hanswer]
  cases hgate : w.gate.allowNewWork with
  | false => exact hstopped
  | true =>
      refine safe_refreshed_claim_of (hrefresh hgate) hclaim hfailed ?_
      intro w₁ claimed hw₁ hassumed hreceived
      cases claimed with
      | noJob => exact hnoJob w₁ hw₁ hassumed hreceived
      | denied reason => exact hdenied w₁ reason hw₁ hassumed hreceived
      | envelope job => exact hrun w₁ job hw₁ hassumed hreceived

/--
One entry of the replay.  `T` holds when its acknowledgement was accepted, and `B` when
the entry is to be kept for the next replay.
-/
theorem safe_replayEntry_of
    {entry : PendingAcknowledgement} {T B : RunnerState codec ω → Prop}
    {Q : Unit → RunnerState codec ω → Prop} {E : PyError → RunnerState codec ω → Prop}
    {w : RunnerState codec ω}
    (hland : entry.reason = .invalidOrExpired →
      Program.Safe (answer surroundings) assumed guaranteed
        (landPendingResult codec config entry.jobId entry.result) Q E w)
    (hacknowledge : entry.reason ≠ .invalidOrExpired →
      Program.Safe (answer surroundings) assumed guaranteed
        (clientAcknowledge .replay entry.jobId entry.leaseToken entry.result)
        (fun _ => T) (fun e w₁ => E e w₁ ∧ B w₁) w)
    (hresolve : ∀ w₁, T w₁ →
      Program.Safe (answer surroundings) assumed guaranteed
        (do
          askStore (.resolve entry.id)
          askStore (.markCompleted entry.jobId)) Q E w₁)
    (hbump : ∀ w₁, B w₁ →
      Program.Safe (answer surroundings) assumed guaranteed
        (askStore (.bumpAttempt entry.id)) Q E w₁) :
    Program.Safe (answer surroundings) assumed guaranteed (replayEntry codec config entry)
      Q E w := by
  unfold replayEntry
  by_cases hreason : entry.reason = .invalidOrExpired
  · rw [if_pos hreason]
    exact hland hreason
  · rw [if_neg hreason, Program.bind_eq, Program.safe_bind, safe_exceptRetryable]
    refine (hacknowledge hreason).mono ?_ ?_
    · intro _ w₁ hw₁
      exact hresolve w₁ hw₁
    · rintro e w₁ ⟨hraised, hkept⟩
      split
      · exact hbump w₁ hkept
      · exact hraised

end Rules

end Runner
end PrReviewer
