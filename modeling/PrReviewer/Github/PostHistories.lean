import PrReviewer.Github.PostReview
import PrReviewer.Lib.Run

/-!
# Histories of posting

Calls of `post_review`, one after the other, each killed after any number of its calls, on
a GitHub where other people write reviews as well.  What the callables answer is chosen
turn by turn: a call may raise with or without its effect, a listing shows the reviews in
any order, and a lookup returns any recorded post or none.
-/

namespace PrReviewer
namespace Github

open Lib
open Hosted
open Reviewer

theorem pullRequestRef_eq_iff
    {ref ref' : PullRequestRef} :
    ref.owner = ref'.owner ∧ ref.repository = ref'.repository ∧ ref.number = ref'.number ↔
      ref = ref' := by
  cases ref
  cases ref'
  simp only [PullRequestRef.mk.injEq]

instance : DecidableEq PullRequestRef :=
  fun _ _ => decidable_of_iff _ pullRequestRef_eq_iff

/-- A review on GitHub, and the key it was submitted for if `post_review` submitted it. -/
structure GitHubReview where
  number : Nat
  pull : PullRequestRef
  body : PyStr
  createdFor : Option PyStr

structure World where
  reviews : List GitHubReview
  recorded : List PostedReview
  clock : Nat

/-- A review somebody else writes. -/
structure Arrival where
  pull : PullRequestRef
  body : PyStr

/-- How a listing shows the reviews of a pull request. -/
structure Listing where
  view : GitHubReview → PostedReview
  order : List PostedReview → List PostedReview
  view_id : ∀ review, (view review).githubReviewId = some (decimal review.number)
  view_body : ∀ review, (view review).body = review.body
  order_perm : ∀ reviews, (order reviews).Perm reviews

/-- What happens at one call of a callable. -/
structure Turn where
  /-- The reviews other people have written since the last call. -/
  arrivals : List Arrival
  raises : Option PostError
  /-- A call that raises has its effect all the same: the response was lost. -/
  takesEffect : Bool
  /-- The recorded post a lookup returns. -/
  found : Option Nat
  listing : Listing
  rendered : PyStr
  liveHead : PyStr
  response : PostedReview

/-- One call of `post_review`, killed after a number of its calls. -/
structure PostCall where
  ref : PullRequestRef
  headSha : PyStr
  policyVersion : PyStr
  findings : List (Finding × RouteDecision)
  patches : List FilePatch
  given : PostCallables
  killedAfter : Nat

def World.add (w : World) (pull : PullRequestRef) (body : PyStr) (createdFor : Option PyStr) :
    World :=
  { w with reviews := w.reviews ++ [{
      number := w.reviews.length
      pull := pull
      body := body
      createdFor := createdFor }] }

/-- The reviews other people write. -/
def World.arrive (w : World) : List Arrival → World
  | [] => w
  | arrival :: rest => (w.add arrival.pull arrival.body none).arrive rest

/-- The world a call finds at its turn. -/
def World.atTurn (w : World) (turn : Turn) : World :=
  { w.arrive turn.arrivals with clock := w.clock + 1 }

/-- The post is a review on GitHub. -/
def World.Holds (w : World) (posted : PostedReview) : Prop :=
  ∃ review ∈ w.reviews, posted.githubReviewId = some (decimal review.number)

/-- The reviews of a pull request. -/
def World.reviewsOf (w : World) (ref : PullRequestRef) : List GitHubReview :=
  w.reviews.filter (fun review => review.pull = ref)

/-- The number of reviews that were submitted for a key. -/
def World.createdCount (w : World) (key : PyStr) : Nat :=
  w.reviews.countP (fun review => review.createdFor = some key)

/-- What a callable returns, unless it raises. -/
def Turn.outcome {α : Type} (turn : Turn) (value : α) : Except PostError α :=
  match turn.raises with
  | some error => .error error
  | none => .ok value

/-- The call has its effect. -/
def Turn.acts (turn : Turn) : Bool :=
  turn.raises.isNone || turn.takesEffect

def PostCall.key (c : PostCall) : Except PyException PyStr :=
  postingIdempotencyKey c.ref c.headSha c.policyVersion

def PostCall.arguments (c : PostCall) (key : PyStr) : PostArguments where
  ref := c.ref
  headSha := c.headSha
  findings := c.findings
  idempotencyKey := key
  patches := c.patches

/-- The callables of a call: `submit` posts to the pull request of the call. -/
def PostCall.answer (turns : Nat → Turn) (c : PostCall) :
    (op : PostOp) → World → op.Result × World
  | .lookup _, w =>
      let turn := turns w.clock
      (turn.outcome (turn.found.bind (fun i => w.recorded[i]?)), w.atTurn turn)
  | .listReviews ref, w =>
      let turn := turns w.clock
      (turn.outcome (turn.listing.order
        (((w.atTurn turn).reviewsOf ref).map turn.listing.view)), w.atTurn turn)
  | .renderHunks _, w =>
      let turn := turns w.clock
      (turn.outcome turn.rendered, w.atTurn turn)
  | .currentHeadSha, w =>
      let turn := turns w.clock
      (turn.outcome turn.liveHead, w.atTurn turn)
  | .submit submission, w =>
      let turn := turns w.clock
      let found := w.atTurn turn
      (turn.outcome { turn.response with githubReviewId := some (decimal found.reviews.length) },
        if turn.acts then found.add c.ref submission.body c.key.toOption else found)
  | .recordPost posted, w =>
      let turn := turns w.clock
      let found := w.atTurn turn
      (turn.outcome (), if turn.acts then
        { found with recorded := found.recorded ++ [posted] } else found)
  | .recordEvent _ _ _, w =>
      let turn := turns w.clock
      (turn.outcome (), w.atTurn turn)

/-- The key is computed, and the review posted under it. -/
def PostCall.program (tables : UnicodeTables) (c : PostCall) :
    PostProgram (Option PostedReview) := do
  let key ← Program.ofExcept (c.key.mapError .python)
  postReview tables (c.arguments key) c.given

def postStep (tables : UnicodeTables) (turns : Nat → Turn) (w : World) (c : PostCall) : World :=
  Program.killed (c.answer turns) c.killedAfter (c.program tables) w

def World.new : World where
  reviews := []
  recorded := []
  clock := 0

/-- The world after the calls. -/
def worldAfter (tables : UnicodeTables) (turns : Nat → Turn) (calls : List PostCall) : World :=
  exec (postStep tables turns) .new calls

/-- The names of the pull request hold none of the separators of a key. -/
def PlainNames (ref : PullRequestRef) : Prop :=
  ∀ c ∈ ['/', '#', '@', ':'], c ∉ ref.owner.toList ∧ c ∉ ref.repository.toList

/-! ## The key of a pull request -/

theorem at_not_mem_decimal
    (n : Nat) :
    '@' ∉ (toString n).toList := by
  intro hmem
  have hpoint : pointOf '@' ∈ (decimal n).points := List.mem_map_of_mem hmem
  have hdigit := decimal_digit hpoint
  have hval : (pointOf '@').val = 0x40 := by rfl
  omega

/-- The number in a key is the decimal text of the pull request's number. -/
theorem number_of_key
    {ref : PullRequestRef} {headSha policyVersion key : PyStr}
    (h : postingIdempotencyKey ref headSha policyVersion = .ok key) :
    ∃ n : Nat, ref.number = n ∧
      key = .ofString ref.owner ++ (⟨[pointOf '/']⟩ ++ (.ofString ref.repository ++
        (⟨[pointOf '#']⟩ ++ (decimal n ++ (⟨[pointOf '@']⟩ ++ (headSha ++
          (.ofString ":" ++ policyVersion))))))) := by
  obtain ⟨n, hn⟩ := Int.eq_ofNat_of_zero_le (le_of_lt ref.number_pos)
  obtain ⟨number, hnumber, hkey⟩ := bind_eq_ok h
  rw [hn] at hnumber
  cases hkey
  rw [intText_natCast hnumber]
  exact ⟨n, hn, rfl⟩

/-- Pull requests with one key and plain names are the same. -/
theorem ref_eq_of_key
    {ref ref' : PullRequestRef} {headSha headSha' policyVersion policyVersion' key : PyStr}
    (hplain : PlainNames ref) (hplain' : PlainNames ref')
    (h : postingIdempotencyKey ref headSha policyVersion = .ok key)
    (h' : postingIdempotencyKey ref' headSha' policyVersion' = .ok key) :
    ref = ref' := by
  obtain ⟨n, hn, hkey⟩ := number_of_key h
  obtain ⟨n', hn', hkey'⟩ := number_of_key h'
  rw [hkey] at hkey'
  have howner := hplain '/' (by simp)
  have howner' := hplain' '/' (by simp)
  have hrepository := hplain '#' (by simp)
  have hrepository' := hplain' '#' (by simp)
  obtain ⟨hsameOwner, hkey'⟩ := ofString_append_inj howner.1 howner'.1 hkey'
  obtain ⟨hsameRepository, hkey'⟩ := ofString_append_inj hrepository.2 hrepository'.2 hkey'
  obtain ⟨hsameNumber, _⟩ :=
    ofString_append_inj (at_not_mem_decimal n) (at_not_mem_decimal n') hkey'
  have hnumbers : n = n' := decimal_injective (congrArg PyStr.ofString hsameNumber)
  obtain ⟨owner, repository, number, _, _, _⟩ := ref
  obtain ⟨owner', repository', number', _, _, _⟩ := ref'
  simp only at hn hn' hsameOwner hsameRepository
  subst hn hn' hsameOwner hsameRepository hnumbers
  rfl

/-! ## What the reviews on GitHub satisfy -/

/-- No review was submitted for the key. -/
def World.Unposted (w : World) (key : PyStr) : Prop :=
  ∀ review ∈ w.reviews, review.createdFor ≠ some key

/-- The invariant of the histories. -/
structure World.Sound (w : World) : Prop where
  marked : ∀ review ∈ w.reviews, ∀ key, review.createdFor = some key →
    review.body.contains (marker key) = true ∧ PlainNames review.pull ∧
      ∃ headSha policyVersion, postingIdempotencyKey review.pull headSha policyVersion = .ok key
  once : ∀ key, w.createdCount key ≤ 1
  recorded : ∀ posted ∈ w.recorded, w.Holds posted

theorem World.Unposted.createdCount
    {w : World} {key : PyStr}
    (h : w.Unposted key) :
    w.createdCount key = 0 := by
  refine List.countP_eq_zero.mpr ?_
  intro review hreview
  simpa using h review hreview

theorem World.Holds.add
    {w : World} {posted : PostedReview}
    (h : w.Holds posted) (pull : PullRequestRef) (body : PyStr) (createdFor : Option PyStr) :
    (w.add pull body createdFor).Holds posted := by
  obtain ⟨review, hreview, hid⟩ := h
  exact ⟨review, List.mem_append_left _ hreview, hid⟩

/-- The count of a key grows with a review that is submitted for it. -/
theorem World.createdCount_add
    (w : World) (pull : PullRequestRef) (body : PyStr) (createdFor : Option PyStr) (key : PyStr) :
    (w.add pull body createdFor).createdCount key =
      w.createdCount key + if createdFor = some key then 1 else 0 := by
  unfold World.createdCount World.add
  rw [List.countP_append, List.countP_singleton]
  simp only [decide_eq_true_eq]

/-- A review somebody else writes, or one for a key nothing was posted for. -/
theorem World.Sound.add
    {w : World} {pull : PullRequestRef} {body : PyStr} {createdFor : Option PyStr}
    (h : w.Sound)
    (hfor : ∀ key, createdFor = some key →
      w.Unposted key ∧ body.contains (marker key) = true ∧ PlainNames pull ∧
        ∃ headSha policyVersion, postingIdempotencyKey pull headSha policyVersion = .ok key) :
    (w.add pull body createdFor).Sound := by
  refine ⟨?_, ?_, ?_⟩
  · intro review hreview key hkey
    rcases List.mem_append.mp hreview with hold | hnew
    · exact h.marked review hold key hkey
    · rw [List.mem_singleton] at hnew
      subst hnew
      exact (hfor key hkey).2
  · intro key
    rw [World.createdCount_add]
    by_cases hkey : createdFor = some key
    · rw [if_pos hkey, (hfor key hkey).1.createdCount]
    · rw [if_neg hkey]
      exact h.once key
  · intro posted hposted
    exact (h.recorded posted hposted).add pull body createdFor

/-- What the reviews of other people keep. -/
theorem World.arrive_keeps
    {I : World → Prop}
    (hadd : ∀ w pull body, I w → I (w.add pull body none))
    {w : World} (arrivals : List Arrival)
    (h : I w) :
    I (w.arrive arrivals) := by
  induction arrivals generalizing w with
  | nil => exact h
  | cons arrival rest ih => exact ih (hadd w arrival.pull arrival.body h)

theorem World.Sound.atTurn
    {w : World}
    (h : w.Sound) (turn : Turn) :
    (w.atTurn turn).Sound := by
  have harrive : (w.arrive turn.arrivals).Sound :=
    World.arrive_keeps (fun _ _ _ hw => hw.add (by simp)) turn.arrivals h
  exact ⟨harrive.marked, harrive.once, harrive.recorded⟩

theorem World.Unposted.atTurn
    {w : World} {key : PyStr}
    (h : w.Unposted key) (turn : Turn) :
    (w.atTurn turn).Unposted key := by
  refine World.arrive_keeps (I := fun w => w.Unposted key) ?_ turn.arrivals h
  intro w pull body hw review hreview
  rcases List.mem_append.mp hreview with hold | hnew
  · exact hw review hold
  · rw [List.mem_singleton] at hnew
    subst hnew
    exact nofun

theorem World.Holds.atTurn
    {w : World} {posted : PostedReview}
    (h : w.Holds posted) (turn : Turn) :
    (w.atTurn turn).Holds posted :=
  World.arrive_keeps (I := fun w => w.Holds posted) (fun _ _ _ hw => hw.add ..) turn.arrivals h

/-! ## What one call keeps -/

section OneCall

variable {turns : Nat → Turn} {c : PostCall} {key : PyStr} {w : World}

theorem Turn.outcome_eq_ok
    {α : Type} {turn : Turn} {value value' : α}
    (h : turn.outcome value = .ok value') :
    value' = value := by
  unfold Turn.outcome at h
  split at h
  · cases h
  · cases h
    rfl

/-- What a call may be made with: a submission only while nothing is posted for the key. -/
structure Guaranteed (key : PyStr) (w : World) (op : PostOp) : Prop where
  sound : w.Sound
  submit : ∀ submission, op = .submit submission →
    w.Unposted key ∧ submission.body.contains (marker key) = true
  recordPost : ∀ posted, op = .recordPost posted → w.Holds posted

/-- The calls that are no submission and no record. -/
def PostOp.reads : PostOp → Bool
  | .submit _ => false
  | .recordPost _ => false
  | _ => true

theorem answer_of_reads
    {op : PostOp}
    (hop : op.reads = true) :
    (c.answer turns op w).2 = w.atTurn (turns w.clock) := by
  cases op with
  | submit submission => cases hop
  | recordPost posted => cases hop
  | _ => rfl

theorem guaranteed_of_reads
    {op : PostOp}
    (hop : op.reads = true) (hsound : w.Sound) :
    Guaranteed key w op := by
  refine ⟨hsound, ?_, ?_⟩
  · rintro submission rfl
    cases hop
  · rintro posted rfl
    cases hop

/-- A submission with the marker, for a key nothing is posted for. -/
theorem sound_submit
    {submission : ReviewSubmission}
    (hkey : c.key = .ok key) (hplain : PlainNames c.ref)
    (hsound : w.Sound) (hfree : w.Unposted key)
    (hmarker : submission.body.contains (marker key) = true) :
    (c.answer turns (.submit submission) w).2.Sound := by
  have hturn := hsound.atTurn (turns w.clock)
  simp only [PostCall.answer]
  split
  · refine hturn.add ?_
    intro key' hkey'
    rw [hkey] at hkey'
    cases hkey'
    exact ⟨hfree.atTurn _, hmarker, hplain, c.headSha, c.policyVersion, hkey⟩
  · exact hturn

/-- A record of a post that is on GitHub. -/
theorem sound_recordPost
    {posted : PostedReview}
    (hsound : w.Sound) (hholds : w.Holds posted) :
    (c.answer turns (.recordPost posted) w).2.Sound := by
  have hturn := hsound.atTurn (turns w.clock)
  simp only [PostCall.answer]
  split
  · refine ⟨hturn.marked, hturn.once, ?_⟩
    intro other hother
    rcases List.mem_append.mp hother with hold | hnew
    · exact hturn.recorded other hold
    · rw [List.mem_singleton] at hnew
      subst hnew
      exact hholds.atTurn (turns w.clock)
  · exact hturn

/-- A post on GitHub stays there. -/
theorem holds_answer
    {posted : PostedReview} (op : PostOp)
    (h : w.Holds posted) :
    (c.answer turns op w).2.Holds posted := by
  have hturn := h.atTurn (turns w.clock)
  cases op with
  | submit submission =>
      simp only [PostCall.answer]
      split
      · exact hturn.add ..
      · exact hturn
  | recordPost other =>
      simp only [PostCall.answer]
      split
      · exact hturn
      · exact hturn
  | _ => exact hturn

theorem answer_sound
    {op : PostOp}
    (hkey : c.key = .ok key) (hplain : PlainNames c.ref)
    (h : Guaranteed key w op) :
    (c.answer turns op w).2.Sound := by
  cases op with
  | submit submission =>
      have hsubmit := h.submit submission rfl
      exact sound_submit hkey hplain h.sound hsubmit.1 hsubmit.2
  | recordPost posted => exact sound_recordPost h.sound (h.recordPost posted rfl)
  | _ => exact h.sound.atTurn _

/-- A successful submission answers with a review on GitHub. -/
theorem holds_submit
    {submission : ReviewSubmission} {posted : PostedReview}
    (h : (c.answer turns (.submit submission) w).1 = .ok posted) :
    (c.answer turns (.submit submission) w).2.Holds posted := by
  have hposted := Turn.outcome_eq_ok h
  simp only [PostCall.answer] at h ⊢
  have hraises : (turns w.clock).raises = none := by
    unfold Turn.outcome at h
    split at h
    · cases h
    · next hnone => exact hnone
  have hacts : (turns w.clock).acts = true := by simp [Turn.acts, hraises]
  rw [if_pos hacts]
  refine ⟨_, List.mem_append_right _ (List.mem_singleton_self _), ?_⟩
  rw [hposted]

/-- A lookup answers with a post on GitHub. -/
theorem holds_lookup
    {other : PyStr} {posted : PostedReview}
    (hsound : w.Sound)
    (h : (c.answer turns (.lookup other) w).1 = .ok (some posted)) :
    (c.answer turns (.lookup other) w).2.Holds posted := by
  have hposted := Turn.outcome_eq_ok h
  obtain ⟨i, _, hget⟩ := Option.bind_eq_some_iff.mp hposted.symm
  exact (hsound.recorded posted (List.mem_of_getElem? hget)).atTurn _

/-- A listing shows reviews on GitHub, and all those of the pull request. -/
theorem listed_iff
    {ref : PullRequestRef} {reviews : List PostedReview}
    (h : (c.answer turns (.listReviews ref) w).1 = .ok reviews) (posted : PostedReview) :
    posted ∈ reviews ↔
      ∃ review ∈ (c.answer turns (.listReviews ref) w).2.reviews, review.pull = ref ∧
        (turns w.clock).listing.view review = posted := by
  rw [Turn.outcome_eq_ok h, ((turns w.clock).listing.order_perm _).mem_iff, List.mem_map]
  simp only [World.reviewsOf, List.mem_filter, decide_eq_true_eq, PostCall.answer, and_assoc]

/-- The judgement: the invariant holds at every call, and a submission finds nothing posted. -/
abbrev SafePost
    {α : Type} (turns : Nat → Turn) (c : PostCall) (key : PyStr)
    (p : PostProgram α) (Q : α → World → Prop) (w : World) : Prop :=
  Program.Safe (c.answer turns) (fun _ _ => True) (Guaranteed key) p Q
    (fun _ w' => w'.Sound) w

/-- A call, with a postcondition for what it raises. -/
theorem safe_call
    {op : PostOp} {Q : op.Value → World → Prop} {E : PostError → World → Prop}
    (hkey : c.key = .ok key) (hplain : PlainNames c.ref)
    (h : Guaranteed key w op)
    (hQ : ∀ value, (c.answer turns op w).1 = .ok value →
      (c.answer turns op w).2.Sound → Q value (c.answer turns op w).2)
    (hE : ∀ error, (c.answer turns op w).2.Sound → E error (c.answer turns op w).2) :
    Program.Safe (c.answer turns) (fun _ _ => True) (Guaranteed key) (callPost op) Q E w := by
  have hafter : (c.answer turns op w).2.Sound := answer_sound hkey hplain h
  unfold callPost Program.perform
  rw [Program.bind_eq]
  refine ⟨h, fun _ => ?_⟩
  cases hanswer : (c.answer turns op w).1 with
  | ok value => exact hQ value hanswer hafter
  | error e => exact hE e hafter

theorem safe_callPost
    {op : PostOp} {Q : op.Value → World → Prop}
    (hkey : c.key = .ok key) (hplain : PlainNames c.ref)
    (h : Guaranteed key w op)
    (hQ : ∀ value, (c.answer turns op w).1 = .ok value →
      (c.answer turns op w).2.Sound → Q value (c.answer turns op w).2) :
    SafePost turns c key (callPost op) Q w :=
  safe_call hkey hplain h hQ (fun _ hafter => hafter)

theorem safe_lookedUp
    {given : PostCallables}
    (hkey : c.key = .ok key) (hplain : PlainNames c.ref) (hsound : w.Sound) :
    SafePost turns c key (lookedUp key given)
      (fun found w' => w'.Sound ∧ ∀ posted, found = some posted → w'.Holds posted) w := by
  unfold lookedUp
  split
  · refine safe_callPost hkey hplain (guaranteed_of_reads rfl hsound) ?_
    intro found hfound hafter
    exact ⟨hafter, fun posted hposted => holds_lookup hsound (hposted ▸ hfound)⟩
  · exact ⟨hsound, nofun⟩

/-- Where the listing shows no marker of the key, no review was submitted for it. -/
theorem safe_listed
    {given : PostCallables}
    (hkey : c.key = .ok key) (hplain : PlainNames c.ref)
    (hlists : given.listReviews = true) (hsound : w.Sound) :
    SafePost turns c key (listed key c.ref given)
      (fun found w' => w'.Sound ∧ (∀ posted, found = some posted → w'.Holds posted) ∧
        (found = none → w'.Unposted key)) w := by
  unfold listed SafePost
  rw [if_pos hlists, Program.bind_eq, Program.safe_bind]
  refine safe_callPost hkey hplain (guaranteed_of_reads rfl hsound) ?_
  intro reviews hreviews hafter
  refine ⟨hafter, ?_, ?_⟩
  · intro posted hposted
    obtain ⟨shown, hshown, rfl⟩ := Option.map_eq_some_iff.mp hposted
    obtain ⟨review, hmem, _, rfl⟩ :=
      (listed_iff hreviews shown).mp (List.mem_of_find?_eq_some hshown)
    exact ⟨review, hmem, (turns w.clock).listing.view_id review⟩
  · intro hnone review hreview hcreated
    obtain ⟨hmarker, hplain', headSha, policyVersion, hkey'⟩ :=
      hafter.marked review hreview key hcreated
    have hpull := ref_eq_of_key hplain' hplain hkey' hkey
    have hshown := (listed_iff hreviews _).mpr ⟨review, hreview, hpull, rfl⟩
    have hbody := (List.find?_eq_none.mp (Option.map_eq_none_iff.mp hnone)) _ hshown
    rw [(turns w.clock).listing.view_body] at hbody
    exact hbody hmarker

/-- What `_existing` finds is on GitHub; where it finds nothing, nothing is posted. -/
theorem safe_existing
    {given : PostCallables}
    (hkey : c.key = .ok key) (hplain : PlainNames c.ref)
    (hlists : given.listReviews = true) (hsound : w.Sound) :
    SafePost turns c key (existing key c.ref given)
      (fun found w' => w'.Sound ∧ (∀ posted, found = some posted → w'.Holds posted) ∧
        (found = none → w'.Unposted key)) w := by
  unfold existing SafePost
  rw [Program.bind_eq, Program.safe_bind]
  refine (safe_lookedUp hkey hplain hsound).mono ?_ (fun _ _ h => h)
  rintro (_ | review) w' ⟨hsound', hholds⟩
  · exact safe_listed hkey hplain hlists hsound'
  · exact ⟨hsound', hholds, nofun⟩

/-! ## What `post_review` keeps -/

/-- The body of a submission has the marker in it. -/
theorem reviewBody_contains
    (key : PyStr) (titles : List String) :
    (reviewBody key titles).contains (marker key) = true := by
  rw [PyStr.contains_iff]
  exact (List.prefix_append ..).isInfix

theorem only_reads_inlineComments
    (tables : UnicodeTables) (patches : List FilePatch) (findings : List Finding) :
    Program.Only (fun op => op.reads = true) (inlineComments tables patches findings) := by
  induction findings with
  | nil => trivial
  | cons finding rest ih =>
      refine Program.only_bind ?_ (fun comment => Program.only_bind ih (fun _ => trivial))
      unfold anchor
      split
      · trivial
      · refine Program.only_bind ?_ ?_
        · exact Program.only_bind (Program.only_perform rfl) Program.only_ofExcept
        · exact fun rendered => Program.only_bind (Program.only_ofExcept _) (fun _ => trivial)

/-- Anchoring the findings posts nothing. -/
theorem safe_inlineComments
    {tables : UnicodeTables} {patches : List FilePatch} {findings : List Finding}
    (hsound : w.Sound) (hfree : w.Unposted key) :
    SafePost turns c key (inlineComments tables patches findings)
      (fun _ w' => w'.Sound ∧ w'.Unposted key) w := by
  refine Program.Safe.mono
    ((only_reads_inlineComments tables patches findings).safe
      (I := fun w' => w'.Sound ∧ w'.Unposted key) ?_ ⟨hsound, hfree⟩)
    (fun _ _ h => h) (fun _ _ h => h.1)
  rintro w' op hop ⟨hsound', hfree'⟩
  refine ⟨guaranteed_of_reads hop hsound', fun _ => ?_⟩
  rw [answer_of_reads hop]
  exact ⟨hsound'.atTurn _, hfree'.atTurn _⟩

/-- The submission, while nothing is posted for the key. -/
theorem safe_submitAtHead
    {args : PostArguments} {given : PostCallables} {submission : ReviewSubmission}
    (hkey : c.key = .ok args.idempotencyKey) (hplain : PlainNames c.ref)
    (href : args.ref = c.ref)
    (hlists : given.listReviews = true)
    (hsound : w.Sound) (hfree : w.Unposted args.idempotencyKey)
    (hmarker : submission.body.contains (marker args.idempotencyKey) = true) :
    SafePost turns c args.idempotencyKey (submitAtHead args given submission)
      (fun posted w' => w'.Sound ∧ w'.Holds posted) w := by
  unfold submitAtHead SafePost
  rw [Program.bind_eq, Program.safe_bind]
  refine safe_callPost hkey hplain (guaranteed_of_reads rfl hsound) ?_
  intro live _ hsound'
  have hfree' := hfree.atTurn (turns w.clock)
  split
  · rw [Program.safe_catching]
    have hsubmit : Guaranteed args.idempotencyKey
        (c.answer turns .currentHeadSha w).2 (.submit submission) := by
      refine ⟨hsound', ?_, nofun⟩
      intro other hother
      cases hother
      exact ⟨hfree', hmarker⟩
    refine safe_call hkey hplain hsubmit
      (fun posted hposted hafter => ⟨hafter, holds_submit hposted⟩) ?_
    intro error hafter
    cases error with
    | timeoutException =>
        rw [href]
        rw [Program.bind_eq, Program.safe_bind]
        refine (safe_existing hkey hplain hlists hafter).mono ?_ (fun _ _ h => h)
        rintro (_ | posted) w' ⟨hsound'', hholds, _⟩
        · exact hsound''
        · exact ⟨hsound'', hholds posted rfl⟩
    | stalePullRequestHead message => exact hafter
    | python error => exact hafter
    | other name => exact hafter
  · exact hsound'

/-- The post is on GitHub, and stays there while it is recorded. -/
theorem safe_recorded
    {args : PostArguments} {given : PostCallables} {posted : PostedReview}
    (hkey : c.key = .ok key) (hplain : PlainNames c.ref)
    (hsound : w.Sound) (hholds : w.Holds posted) :
    SafePost turns c key (recorded args given posted)
      (fun returned w' => w'.Sound ∧ ∀ post, returned = some post → w'.Holds post) w := by
  have hrecord : SafePost turns c key (recordPosted given posted)
      (fun _ w' => w'.Sound ∧ w'.Holds posted) w := by
    unfold recordPosted
    split
    · have hguaranteed : Guaranteed key w (.recordPost posted) :=
        ⟨hsound, nofun, fun other hother => by cases hother; exact hholds⟩
      exact safe_callPost hkey hplain hguaranteed
        (fun _ _ hafter => ⟨hafter, holds_answer _ hholds⟩)
    · exact ⟨hsound, hholds⟩
  have hemit : ∀ w' : World, w'.Sound → w'.Holds posted →
      SafePost turns c key (emit args.findings given posted)
        (fun _ w'' => w''.Sound ∧ w''.Holds posted) w' := by
    intro w' hsound' hholds'
    unfold emit
    split
    · exact safe_callPost hkey hplain (guaranteed_of_reads rfl hsound')
        (fun _ _ hafter => ⟨hafter, holds_answer _ hholds'⟩)
    · exact ⟨hsound', hholds'⟩
  unfold recorded SafePost
  rw [Program.bind_eq, Program.safe_bind]
  refine hrecord.mono ?_ (fun _ _ h => h)
  rintro _ w' ⟨hsound', hholds'⟩
  rw [Program.bind_eq, Program.safe_bind]
  refine (hemit w' hsound' hholds').mono ?_ (fun _ _ h => h)
  rintro _ w'' ⟨hsound'', hholds''⟩
  refine ⟨hsound'', ?_⟩
  intro post hpost
  cases hpost
  exact hholds''

theorem safe_postPublic
    {tables : UnicodeTables} {args : PostArguments} {given : PostCallables}
    {findings : List Finding}
    (hkey : c.key = .ok args.idempotencyKey) (hplain : PlainNames c.ref)
    (href : args.ref = c.ref) (hlists : given.listReviews = true)
    (hsound : w.Sound) (hfree : w.Unposted args.idempotencyKey) :
    SafePost turns c args.idempotencyKey (postPublic tables args given findings)
      (fun posted w' => w'.Sound ∧ w'.Holds posted) w := by
  unfold postPublic SafePost
  rw [Program.bind_eq, Program.safe_bind]
  refine (safe_inlineComments hsound hfree).mono ?_ (fun _ _ h => h)
  rintro inline w' ⟨hsound', hfree'⟩
  rw [Program.bind_eq, Program.safe_bind]
  refine (safe_submitAtHead hkey hplain href hlists hsound' hfree'
    (reviewBody_contains _ _)).mono ?_ (fun _ _ h => h)
  rintro posted w'' ⟨hsound'', hholds⟩
  exact ⟨hsound'', hholds⟩

/-- `post_review` keeps the invariant and returns posts that are on GitHub. -/
theorem safe_postReview
    {tables : UnicodeTables} {args : PostArguments} {given : PostCallables}
    (hkey : c.key = .ok args.idempotencyKey) (hplain : PlainNames c.ref)
    (href : args.ref = c.ref) (hlists : given.listReviews = true)
    (hsound : w.Sound) :
    SafePost turns c args.idempotencyKey (postReview tables args given)
      (fun returned w' => w'.Sound ∧ ∀ posted, returned = some posted → w'.Holds posted) w := by
  unfold postReview SafePost
  rw [Program.bind_eq, Program.safe_bind, href]
  refine (safe_existing hkey hplain hlists hsound).mono ?_ (fun _ _ h => h)
  rintro (_ | review) w' ⟨hsound', hholds, hfree⟩
  · cases hpublic : publicFindings args.findings with
    | nil => exact ⟨hsound', nofun⟩
    | cons finding rest =>
        refine Program.safe_bind.mpr ?_
        refine (safe_postPublic hkey hplain href hlists hsound' (hfree rfl)).mono ?_
          (fun _ _ h => h)
        rintro posted w'' ⟨hsound'', hholds''⟩
        exact safe_recorded hkey hplain hsound'' hholds''
  · exact ⟨hsound', hholds⟩

end OneCall

/-! ## The head is read directly before the submission -/

section Order

variable {args : PostArguments} {given : PostCallables}

/-- A submission follows a read of the head, and is made for the head that was read. -/
def headReadBefore : (op : PostOp) → op.Result → PostOp → Prop
  | .currentHeadSha, .ok live, .submit submission => submission.commitId = live
  | _, _, .submit _ => False
  | _, _, _ => True

/-- The operation is no submission. -/
def PostOp.quiet : PostOp → Prop
  | .submit _ => False
  | _ => True

theorem headReadBefore_quiet
    (op : PostOp) (result : op.Result) {next : PostOp}
    (h : next.quiet) :
    headReadBefore op result next := by
  cases next with
  | submit submission => cases h
  | _ =>
      unfold headReadBefore
      split
      · next hsubmit => cases hsubmit
      · next hsubmit => cases hsubmit
      · trivial

theorem PostOp.quiet_of_reads
    {op : PostOp}
    (h : op.reads = true) :
    op.quiet := by
  cases op with
  | submit submission => cases h
  | _ => trivial

theorem only_callPost
    {P : PostOp → Prop} {op : PostOp}
    (h : P op) :
    Program.Only P (callPost op) :=
  Program.only_bind (Program.only_perform h) Program.only_ofExcept

theorem only_reads_existing
    (key : PyStr) (ref : PullRequestRef) (given : PostCallables) :
    Program.Only (fun op => op.reads = true) (existing key ref given) := by
  have hlookup : Program.Only (fun op => op.reads = true) (lookedUp key given) := by
    unfold lookedUp
    split
    · exact only_callPost rfl
    · trivial
  have hlist : Program.Only (fun op => op.reads = true) (listed key ref given) := by
    unfold listed
    split
    · exact Program.only_bind (only_callPost rfl) (fun _ => trivial)
    · trivial
  refine Program.only_bind hlookup ?_
  rintro (_ | review)
  · exact hlist
  · trivial

theorem only_quiet_recorded
    (posted : PostedReview) :
    Program.Only PostOp.quiet (recorded args given posted) := by
  have hrecord : Program.Only PostOp.quiet (recordPosted given posted) := by
    unfold recordPosted
    split
    · exact only_callPost trivial
    · trivial
  have hemit : Program.Only PostOp.quiet (emit args.findings given posted) := by
    unfold emit
    split
    · exact only_callPost trivial
    · trivial
  exact Program.only_bind hrecord (fun _ => Program.only_bind hemit (fun _ => trivial))

/-- The judgement that every submission directly follows a read of its head. -/
structure HeadFirst {α : Type} (p : PostProgram α) : Prop where
  ordered : Program.Ordered headReadBefore PostOp.quiet p

theorem headFirst_of_only
    {α : Type} {p : PostProgram α}
    (h : Program.Only PostOp.quiet p) :
    HeadFirst p :=
  ⟨h.ordered (fun _ hop => hop) (fun op result _ => headReadBefore_quiet op result)⟩

theorem headFirst_bind
    {α β : Type} {p : PostProgram α} {f : α → PostProgram β}
    (hp : HeadFirst p) (hf : ∀ a, HeadFirst (f a)) :
    HeadFirst (p.bind f) := by
  exact ⟨Program.ordered_bind hp.ordered (fun _ hop => hop)
    (fun op result _ => headReadBefore_quiet op result) (fun a => (hf a).ordered)⟩

/-- After a submission there is only the search for the post a timeout left behind. -/
theorem only_quiet_afterSubmission
    {submission : ReviewSubmission}
    (args : PostArguments) (given : PostCallables)
    (result : PostOp.Result (.submit submission)) :
    Program.Only PostOp.quiet
      ((Program.ofExcept result : PostProgram PostedReview).catching (fun error =>
        match error with
        | .timeoutException => do
            let recovered ← existing args.idempotencyKey args.ref given
            match recovered with
            | none => .raise .timeoutException
            | some posted => return posted
        | error => .raise error)) := by
  refine Program.only_catching (Program.only_ofExcept result) ?_
  rintro (_ | _ | _ | _)
  · trivial
  · refine Program.only_bind
      ((only_reads_existing ..).mono (fun _ => PostOp.quiet_of_reads)) ?_
    rintro (_ | posted)
    · trivial
    · trivial
  · trivial
  · trivial

theorem headFirst_submitAtHead
    {submission : ReviewSubmission}
    (hcommit : submission.commitId = args.headSha) :
    HeadFirst (submitAtHead args given submission) := by
  refine ⟨trivial, fun result => ?_⟩
  cases result with
  | error error => trivial
  | ok live =>
      change Program.Ordered headReadBefore _ (if _ then _ else _)
      split
      · next hcurrent =>
          have hlive : submission.commitId = live := by
            rw [hcommit]
            exact of_decide_eq_true hcurrent
          refine ⟨hlive, fun answer => ?_⟩
          exact (only_quiet_afterSubmission args given answer).ordered
            (fun _ hop => headReadBefore_quiet _ _ hop)
            (fun op result _ => headReadBefore_quiet op result)
      · trivial

theorem headFirst_postReview
    (tables : UnicodeTables) (args : PostArguments) (given : PostCallables) :
    HeadFirst (postReview tables args given) := by
  have hexisting : HeadFirst (existing args.idempotencyKey args.ref given) :=
    headFirst_of_only ((only_reads_existing ..).mono (fun _ => PostOp.quiet_of_reads))
  refine headFirst_bind hexisting ?_
  rintro (_ | review)
  · cases hpublic : publicFindings args.findings with
    | nil => exact ⟨trivial⟩
    | cons finding rest =>
        have hinline : HeadFirst (inlineComments tables args.patches (finding :: rest)) :=
          headFirst_of_only
            ((only_reads_inlineComments ..).mono (fun _ => PostOp.quiet_of_reads))
        have hpublic : HeadFirst (postPublic tables args given (finding :: rest)) := by
          refine headFirst_bind hinline (fun inline => ?_)
          exact headFirst_bind (headFirst_submitAtHead rfl) (fun _ => ⟨trivial⟩)
        exact headFirst_bind hpublic (fun posted => headFirst_of_only (only_quiet_recorded posted))
  · exact ⟨trivial⟩

theorem headFirst_program
    (tables : UnicodeTables) (c : PostCall) :
    HeadFirst (c.program tables) := by
  unfold PostCall.program
  cases c.key with
  | error e => exact ⟨trivial⟩
  | ok key => exact headFirst_postReview tables _ _

/-- A submission of a run comes directly after a read of the head it is made for. -/
theorem head_read_of_submit
    {α : Type} {p : PostProgram α} {turns : Nat → Turn} {c : PostCall} {w w' : World}
    {submission : ReviewSubmission} {before after : List (World × PostOp)}
    (h : HeadFirst p)
    (hsteps : Program.steps (c.answer turns) p w = before ++ (w', .submit submission) :: after) :
    ∃ earlier w'', before = earlier ++ [(w'', .currentHeadSha)] ∧
      (c.answer turns .currentHeadSha w'').1 = .ok submission.commitId := by
  rcases before.eq_nil_or_concat with rfl | ⟨earlier, last, rfl⟩
  · exact absurd (h.ordered.head hsteps) (fun hquiet => hquiet)
  · rw [List.concat_eq_append, List.append_assoc] at hsteps
    have hfollows := h.ordered.neighbours hsteps
    obtain ⟨w'', op⟩ := last
    refine ⟨earlier, w'', ?_⟩
    cases op with
    | currentHeadSha =>
        cases hread : (c.answer turns .currentHeadSha w'').1 with
        | ok live =>
            rw [hread] at hfollows
            have hlive : submission.commitId = live := hfollows
            exact ⟨List.concat_eq_append, by rw [hlive]⟩
        | error e =>
            rw [hread] at hfollows
            cases hfollows
    | _ => cases hfollows

end Order

/-! ## At most once, never stale -/

section Histories

variable (tables : UnicodeTables) (turns : Nat → Turn)

theorem postStep_sound
    {w : World} {c : PostCall}
    (hplain : PlainNames c.ref) (hlists : c.given.listReviews = true) (hsound : w.Sound) :
    (postStep tables turns w c).Sound := by
  unfold postStep PostCall.program
  cases hkey : c.key with
  | error e =>
      cases c.killedAfter with
      | zero => exact hsound
      | succ n => exact hsound
  | ok key =>
      have hsafe :=
        @safe_postReview turns c w tables (c.arguments key) c.given hkey hplain rfl hlists hsound
      exact hsafe.killed_of c.killedAfter (fun _ _ => trivial)
        (fun _ _ h => h.sound) (fun _ _ h => h.1) (fun _ _ h => h)

theorem worldAfter_sound
    {calls : List PostCall}
    (hplain : ∀ c ∈ calls, PlainNames c.ref)
    (hlists : ∀ c ∈ calls, c.given.listReviews = true) :
    (worldAfter tables turns calls).Sound := by
  induction calls using List.reverseRecOn with
  | nil => exact ⟨nofun, fun _ => Nat.zero_le 1, nofun⟩
  | append_singleton calls c ih =>
      have hbefore := ih (fun c' hc' => hplain c' (List.mem_append_left _ hc'))
        (fun c' hc' => hlists c' (List.mem_append_left _ hc'))
      unfold worldAfter at hbefore ⊢
      rw [exec_append]
      exact postStep_sound tables turns (hplain c (by simp)) (hlists c (by simp)) hbefore

/-- A post that a call returns is a review on GitHub. -/
theorem holds_of_returned
    {w : World} {c : PostCall} {posted : PostedReview}
    (hplain : PlainNames c.ref) (hlists : c.given.listReviews = true) (hsound : w.Sound)
    (h : (Program.run (c.answer turns) (c.program tables) w).1 = .ok (some posted)) :
    (Program.run (c.answer turns) (c.program tables) w).2.Holds posted := by
  unfold PostCall.program at h ⊢
  cases hkey : c.key with
  | error e =>
      rw [hkey] at h
      cases h
  | ok key =>
      rw [hkey] at h
      have hsafe :=
        @safe_postReview turns c w tables (c.arguments key) c.given hkey hplain rfl hlists hsound
      exact (hsafe.of_ok (fun _ _ => trivial) h).2 posted rfl

/--
After any calls, GitHub holds at most one review submitted for a key; every submission is
made for the head that was read directly before it; and a post that a call returns is a
review on GitHub.
-/
theorem post_at_most_once_never_stale
    (calls : List PostCall)
    (hplain : ∀ c ∈ calls, PlainNames c.ref)
    (hlists : ∀ c ∈ calls, c.given.listReviews = true) :
    (∀ key, (worldAfter tables turns calls).createdCount key ≤ 1) ∧
      ∀ before c after, calls = before ++ c :: after →
        (∀ earlier w submission later,
          Program.steps (c.answer turns) (c.program tables) (worldAfter tables turns before) =
              earlier ++ (w, .submit submission) :: later →
            ∃ evenEarlier w', earlier = evenEarlier ++ [(w', .currentHeadSha)] ∧
              (c.answer turns .currentHeadSha w').1 = .ok submission.commitId) ∧
        ∀ posted,
          (Program.run (c.answer turns) (c.program tables)
              (worldAfter tables turns before)).1 = .ok (some posted) →
            (Program.run (c.answer turns) (c.program tables)
              (worldAfter tables turns before)).2.Holds posted := by
  refine ⟨(worldAfter_sound tables turns hplain hlists).once, ?_⟩
  rintro before c after rfl
  have hbefore : (worldAfter tables turns before).Sound :=
    worldAfter_sound tables turns (fun c' hc' => hplain c' (List.mem_append_left _ hc'))
      (fun c' hc' => hlists c' (List.mem_append_left _ hc'))
  have hc : c ∈ before ++ c :: after := List.mem_append_right before (List.mem_cons_self ..)
  constructor
  · intro earlier w submission later hsteps
    have hfirst : HeadFirst (c.program tables) := headFirst_program tables c
    exact head_read_of_submit hfirst hsteps
  · intro posted hposted
    exact holds_of_returned tables turns (hplain c hc) (hlists c hc) hbefore hposted

end Histories

section Example

def widgetsPull : PullRequestRef where
  owner := "acme"
  repository := "widgets"
  number := 17
  owner_ne := by simp
  repository_ne := by simp
  number_pos := by omega

theorem returnConfidence_bounds : 0 ≤ (4 / 5 : Rat) ∧ (4 / 5 : Rat) ≤ 1 := by
  decide +kernel

def returnChanged : Finding where
  id := "finding-1"
  reviewJobId := "job-17"
  concern := .correctness
  severity := .medium
  category := "null-check"
  filePath := "app.py"
  lineStart := 3
  lineEnd := 3
  title := "Return value changed"
  rationale := "foo now returns 2."
  evidence := ["app.py:3"]
  confidence := .number (4 / 5) returnConfidence_bounds
  verified := true
  verificationMethod := .static
  publicSafe := true
  status := .draft
  texts_ne := by simp
  evidence_ne := by simp
  lines_ordered := by omega

def emptyPost : PostedReview where
  githubReviewId := none
  commentIds := []
  responseStatus := some 201
  body := ⟨[]⟩
  comments := []
  summaryOnly := false
  idempotencyKey := ⟨[]⟩

/-- A turn at which nothing raises and nobody else writes. -/
def quietTurn (liveHead : PyStr) : Turn where
  arrivals := []
  raises := none
  takesEffect := true
  found := none
  listing := {
    view := fun review => { emptyPost with
      githubReviewId := some (decimal review.number)
      body := review.body }
    order := id
    view_id := fun _ => by rfl
    view_body := fun _ => by rfl
    order_perm := fun _ => List.Perm.refl _ }
  rendered := ⟨[]⟩
  liveHead := liveHead
  response := emptyPost

/-- A call that is killed when GitHub has the review, before the answer is handled. -/
def callKilledAfterSubmit : PostCall where
  ref := widgetsPull
  headSha := .ofString "a"
  policyVersion := .ofString "v1"
  findings := [(returnChanged, ⟨true, .ordinary⟩)]
  patches := []
  given := ⟨false, true, false, false⟩
  killedAfter := 3

theorem post_at_most_once_never_stale_after_kill :
    (worldAfter ⟨fun _ => false, fun _ => none⟩ (fun _ => quietTurn (.ofString "a"))
        [callKilledAfterSubmit, callKilledAfterSubmit]).createdCount
      (.ofString "acme/widgets#17@a:v1") = 1 := by
  have hplain : PlainNames widgetsPull := by
    intro c hc
    simp only [List.mem_cons, List.not_mem_nil, or_false] at hc
    rcases hc with rfl | rfl | rfl | rfl <;> simp [widgetsPull]
  have honce := (post_at_most_once_never_stale ⟨fun _ => false, fun _ => none⟩
    (fun _ => quietTurn (.ofString "a")) [callKilledAfterSubmit, callKilledAfterSubmit]
    (by simpa [callKilledAfterSubmit] using hplain) (by simp [callKilledAfterSubmit])).1
    (.ofString "acme/widgets#17@a:v1")
  exact Nat.le_antisymm honce (by decide +kernel)

end Example

end Github
end PrReviewer
