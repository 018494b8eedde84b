import Mathlib.Data.List.Basic
import Mathlib.Tactic
import PrReviewer.Lib.Table

/-!
# One-time tickets

A ticket is issued under a key, with a secret and a payload.  Whoever presents the key and
the secret within the lifetime of the ticket redeems it and is given the payload; a ticket
is redeemed once.  Looking it up and marking it is one step.

A machine keeps its tickets honest when every step of it issues a ticket, redeems one, or
leaves them alone.
-/

namespace PrReviewer
namespace Lib

/-- A ticket, with the moment it was redeemed at. -/
structure Ticket (κ σ π : Type) where
  key : κ
  secret : σ
  payload : π
  issuedAt : Nat
  redeemedAt : Option Nat
deriving DecidableEq, Repr

abbrev Tickets (κ σ π : Type) :=
  Table (Ticket.key (κ := κ) (σ := σ) (π := π))

/-- What happened to a ticket, and when. -/
inductive TicketEvent (κ σ π : Type) where
  | issued (key : κ) (secret : σ) (payload : π) (moment : Nat)
  | redeemed (key : κ) (secret : σ) (payload : π) (moment : Nat)
deriving DecidableEq, Repr

namespace TicketEvent

variable {κ σ π : Type}

def redeemedKey? : TicketEvent κ σ π → Option κ
  | .issued _ _ _ _ => none
  | .redeemed key _ _ _ => some key

end TicketEvent

section Tickets

variable {κ σ π : Type} [DecidableEq κ] [DecidableEq σ]

/-- A new ticket; its key must be free. -/
def issue (tickets : Tickets κ σ π) (key : κ) (secret : σ) (payload : π) (now : Nat) :
    Option (Tickets κ σ π) :=
  tickets.insert?
    { key := key, secret := secret, payload := payload, issuedAt := now, redeemedAt := none }

/-- The ticket of the key, when it is open and the secret is its own. -/
def redeem (lifetime : Nat) (tickets : Tickets κ σ π) (key : κ) (secret : σ) (now : Nat) :
    Option (π × Tickets κ σ π) :=
  match tickets.find? key with
  | none => none
  | some ticket =>
      if ticket.secret = secret ∧ ticket.redeemedAt = none ∧ now < ticket.issuedAt + lifetime then
        some (ticket.payload,
          tickets.alter key (fun t => { t with redeemedAt := some now }) (fun _ => rfl))
      else
        none

/-- What one step does to the tickets, and the event it leaves. -/
inductive TicketStep (lifetime now : Nat) (tickets : Tickets κ σ π) :
    Tickets κ σ π → Option (TicketEvent κ σ π) → Prop
  | same :
      TicketStep lifetime now tickets tickets none
  | issued
      {tickets' : Tickets κ σ π} {key : κ} {secret : σ} {payload : π}
      (h : issue tickets key secret payload now = some tickets') :
      TicketStep lifetime now tickets tickets' (some (.issued key secret payload now))
  | redeemed
      {tickets' : Tickets κ σ π} {key : κ} {secret : σ} {payload : π}
      (h : redeem lifetime tickets key secret now = some (payload, tickets')) :
      TicketStep lifetime now tickets tickets' (some (.redeemed key secret payload now))

/-- Every ticket was issued as it is, and was redeemed once at most, by its secret, in time. -/
structure HonestTickets
    (lifetime now : Nat) (tickets : Tickets κ σ π) (events : List (TicketEvent κ σ π)) :
    Prop where
  one_redemption : (events.filterMap TicketEvent.redeemedKey?).Nodup
  lawful : ∀ later earlier key secret payload moment,
    events = later ++ .redeemed key secret payload moment :: earlier →
      ∃ issued, .issued key secret payload issued ∈ earlier ∧ issued ≤ moment ∧
        moment < issued + lifetime
  issued : ∀ key ticket, tickets.find? key = some ticket →
    .issued key ticket.secret ticket.payload ticket.issuedAt ∈ events ∧ ticket.issuedAt ≤ now
  marked : ∀ key ∈ events.filterMap TicketEvent.redeemedKey?,
    ∃ ticket, tickets.find? key = some ticket ∧ ticket.redeemedAt ≠ none

variable {lifetime now : Nat} {tickets tickets' : Tickets κ σ π}
variable {events : List (TicketEvent κ σ π)}

omit [DecidableEq σ] in
theorem honestTickets_empty
    (lifetime now : Nat) :
    HonestTickets (κ := κ) (σ := σ) (π := π) lifetime now .empty [] := by
  refine ⟨List.nodup_nil, ?_, ?_, ?_⟩
  · intro later earlier key secret payload moment h
    cases later with
    | nil => cases h
    | cons e later => cases h
  · intro key ticket h
    cases h
  · intro key h
    cases h

omit [DecidableEq σ] in
/-- Time goes by. -/
theorem HonestTickets.later
    {now' : Nat}
    (h : HonestTickets lifetime now tickets events)
    (hnow : now ≤ now') :
    HonestTickets lifetime now' tickets events :=
  { h with
    issued := fun key ticket hfind =>
      ⟨(h.issued key ticket hfind).1, (h.issued key ticket hfind).2.trans hnow⟩ }

theorem redeem_eq_some
    {key : κ} {secret : σ} {payload : π}
    (h : redeem lifetime tickets key secret now = some (payload, tickets')) :
    ∃ ticket, tickets.find? key = some ticket ∧ ticket.secret = secret ∧
      ticket.payload = payload ∧ ticket.redeemedAt = none ∧
      now < ticket.issuedAt + lifetime ∧
      tickets' =
        tickets.alter key (fun t => { t with redeemedAt := some now }) (fun _ => rfl) := by
  unfold redeem at h
  cases hfind : tickets.find? key with
  | none =>
      rw [hfind] at h
      cases h
  | some ticket =>
      simp only [hfind] at h
      split at h
      · next hopen =>
          cases h
          exact ⟨ticket, rfl, hopen.1, rfl, hopen.2.1, hopen.2.2, rfl⟩
      · cases h

/-- An event in front of a history is the first one, or the history goes on as it did. -/
theorem cons_eq_append_cons
    {α : Type} {e x : α} {xs later earlier : List α}
    (h : e :: xs = later ++ x :: earlier) :
    (e = x ∧ xs = earlier) ∨ ∃ later', xs = later' ++ x :: earlier := by
  cases later with
  | nil =>
      cases h
      exact .inl ⟨rfl, rfl⟩
  | cons y later =>
      cases h
      exact .inr ⟨later, rfl⟩

omit [DecidableEq σ] in
theorem HonestTickets.issue
    {key : κ} {secret : σ} {payload : π}
    (h : HonestTickets lifetime now tickets events)
    (hissue : Lib.issue tickets key secret payload now = some tickets') :
    HonestTickets lifetime now tickets' (.issued key secret payload now :: events) := by
  have hfree := (Table.insert?_eq_some hissue).1
  have hfind := Table.find?_insert? hissue
  refine ⟨h.one_redemption, ?_, ?_, ?_⟩
  · intro later earlier k s p moment hsplit
    rcases cons_eq_append_cons hsplit with ⟨he, _⟩ | ⟨later', hrest⟩
    · cases he
    · exact h.lawful later' earlier k s p moment hrest
  · intro k ticket hticket
    rw [hfind] at hticket
    split at hticket
    · next hk =>
        cases hticket
        subst hk
        exact ⟨List.mem_cons_self, le_rfl⟩
    · obtain ⟨hmem, hle⟩ := h.issued k ticket hticket
      exact ⟨List.mem_cons_of_mem _ hmem, hle⟩
  · intro k hk
    obtain ⟨ticket, hticket, hredeemed⟩ := h.marked k hk
    refine ⟨ticket, ?_, hredeemed⟩
    rw [hfind, if_neg ?_]
    · exact hticket
    · intro hkey
      rw [hkey, hfree] at hticket
      cases hticket

theorem HonestTickets.redeem
    {key : κ} {secret : σ} {payload : π}
    (h : HonestTickets lifetime now tickets events)
    (hredeem : Lib.redeem lifetime tickets key secret now = some (payload, tickets')) :
    HonestTickets lifetime now tickets' (.redeemed key secret payload now :: events) := by
  obtain ⟨ticket, hticket, rfl, rfl, hopen, hlive, rfl⟩ := redeem_eq_some hredeem
  obtain ⟨hissued, hle⟩ := h.issued key ticket hticket
  refine ⟨?_, ?_, ?_, ?_⟩
  · rw [List.filterMap_cons]
    refine List.nodup_cons.mpr ⟨?_, h.one_redemption⟩
    intro hmem
    obtain ⟨ticket', hticket', hmarked⟩ := h.marked key hmem
    rw [hticket] at hticket'
    cases hticket'
    exact hmarked hopen
  · intro later earlier k s p moment hsplit
    rcases cons_eq_append_cons hsplit with ⟨he, hrest⟩ | ⟨later', hrest⟩
    · cases he
      subst hrest
      exact ⟨ticket.issuedAt, hissued, hle, hlive⟩
    · exact h.lawful later' earlier k s p moment hrest
  · intro k ticket' hticket'
    rw [Table.find?_alter] at hticket'
    split at hticket'
    · next hk =>
        subst hk
        rw [hticket, Option.map_some] at hticket'
        cases hticket'
        exact ⟨List.mem_cons_of_mem _ hissued, hle⟩
    · obtain ⟨hmem, hle'⟩ := h.issued k ticket' hticket'
      exact ⟨List.mem_cons_of_mem _ hmem, hle'⟩
  · intro k hk
    rw [List.filterMap_cons, TicketEvent.redeemedKey?, List.mem_cons] at hk
    rw [Table.find?_alter]
    by_cases hkey : k = key
    · rw [if_pos hkey, hkey, hticket, Option.map_some]
      exact ⟨_, rfl, Option.some_ne_none _⟩
    · rw [if_neg hkey]
      exact h.marked k (hk.resolve_left hkey)

/-- **Tickets stay honest** in a step that issues one, redeems one, or leaves them alone. -/
theorem HonestTickets.step
    {e : Option (TicketEvent κ σ π)}
    (h : HonestTickets lifetime now tickets events)
    (hstep : TicketStep lifetime now tickets tickets' e) :
    HonestTickets lifetime now tickets' (e.toList ++ events) := by
  cases hstep with
  | same => exact h
  | issued hissue => exact h.issue hissue
  | redeemed hredeem => exact h.redeem hredeem

end Tickets

end Lib
end PrReviewer
