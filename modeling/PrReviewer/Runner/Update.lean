import Mathlib.Logic.Function.Basic
import Mathlib.Tactic
import PrReviewer.Lib.Program

/-!
# Updates of the runner

runner/update.py: `apply_update` as a program of file operations, each of which may fail and
then leaves the files as they are.  The write that rolls back does not fail.

The rollback takes whatever stands in the `.prior` file for the version before.  Where nothing
was installed, that is the version before an earlier update.
-/

namespace PrReviewer
namespace Runner

open Lib

abbrev Bytes := List UInt8

/-- The files an update takes part in; the artifact is read before the others are touched. -/
inductive UpdateFile where
  | artifact
  | install
  | prior
  | staging
deriving DecidableEq, Repr

abbrev UpdateDisk := UpdateFile → Option Bytes

inductive UpdateOp where
  | readBytes (file : UpdateFile)
  | mkdirParent
  | isFile (file : UpdateFile)
  | writeBytes (file : UpdateFile) (bytes : Bytes)
  | replace (source target : UpdateFile)
  | unlink (file : UpdateFile)
deriving DecidableEq, Repr

abbrev UpdateOp.Value : UpdateOp → Type
  | .readBytes _ => Bytes
  | .isFile _ => Bool
  | _ => Unit

inductive UpdateException where
  | osError
  | updateError (message : String)
deriving DecidableEq, Repr

abbrev UpdateOp.Result (op : UpdateOp) : Type :=
  Except UpdateException op.Value

abbrev UpdateProgram : Type → Type :=
  Program UpdateOp.Result UpdateException

def callUpdate (op : UpdateOp) : UpdateProgram op.Value := do
  let result ← (Program.perform op : UpdateProgram op.Result)
  Program.ofExcept result

/-- `UpdateResult`. -/
structure UpdateResult where
  version : String
  priorPath : UpdateFile
deriving DecidableEq, Repr

section Update

-- `hashlib.sha256(payload).hexdigest()` and `str.lower`.
variable (sha256 : Bytes → String) (lower : String → String)

/-- The backup of the installed file, where there is one. -/
def backUp : UpdateProgram Unit := do
  if ← callUpdate (.isFile .install) then
    let installed ← callUpdate (.readBytes .install)
    callUpdate (.writeBytes .prior installed)

/-- The `except` branch of `staging.replace`. -/
def rollBack : UpdateProgram Unit := do
  callUpdate (.unlink .staging)
  if ← callUpdate (.isFile .prior) then
    let previous ← callUpdate (.readBytes .prior)
    callUpdate (.writeBytes .install previous)
  Program.raise (.updateError "failed to replace installed file; rolled back to the prior version")

/-- `apply_update`. -/
def applyUpdate (expectedSha256 version : String) : UpdateProgram UpdateResult := do
  let payload ← callUpdate (.readBytes .artifact)
  let actual := sha256 payload
  if lower actual ≠ lower expectedSha256 then
    Program.raise (.updateError
      ("checksum mismatch: expected " ++ expectedSha256 ++ ", got " ++ actual))
  else
    callUpdate .mkdirParent
    backUp
    callUpdate (.writeBytes .staging payload)
    (callUpdate (.replace .staging .install)).catching (fun error =>
      match error with
      | .osError => rollBack
      | error => Program.raise error)
    return ⟨version, .prior⟩

/-- What an operation that does not fail answers and leaves. -/
def UpdateOp.effect (disk : UpdateDisk) : (op : UpdateOp) → op.Result × UpdateDisk
  | .readBytes file =>
      match disk file with
      | some bytes => (.ok bytes, disk)
      | none => (.error .osError, disk)
  | .mkdirParent => (.ok (), disk)
  | .isFile file => (.ok (disk file).isSome, disk)
  | .writeBytes file bytes => (.ok (), Function.update disk file (some bytes))
  | .replace source target =>
      match disk source with
      | some bytes => (.ok (), Function.update (Function.update disk target (some bytes)) source none)
      | none => (.error .osError, disk)
  | .unlink file => (.ok (), Function.update disk file none)

/-- The write of a rollback. -/
def UpdateOp.isRollback : UpdateOp → Bool
  | .writeBytes .install _ => true
  | _ => false

-- Which operations fail.
variable (fails : UpdateOp → Bool)

/-- The answer of the file system. -/
def answerUpdate (op : UpdateOp) (disk : UpdateDisk) : op.Result × UpdateDisk :=
  if fails op = true ∧ op.isRollback = false then (.error .osError, disk) else op.effect disk

/-- The update installs an artifact with the expected checksum, or leaves the installed file as
it is. -/
def InstallsOrKeeps (expectedSha256 version : String) (disk : UpdateDisk) : Prop :=
  match (applyUpdate sha256 lower expectedSha256 version).run (answerUpdate fails) disk with
  | (.ok _, after) => ∃ payload, disk .artifact = some payload ∧
      after .install = some payload ∧ lower (sha256 payload) = lower expectedSha256
  | (.error _, after) => after .install = disk .install

/-- Nothing is installed, an older backup is there, and all goes well but the replacement. -/
structure RollsBackStale (expectedSha256 : String) (disk : UpdateDisk) : Prop where
  absent : disk .install = none
  stale : disk .prior ≠ none
  verified : ∃ payload, disk .artifact = some payload ∧
    lower (sha256 payload) = lower expectedSha256 ∧ fails (.writeBytes .staging payload) = false
  replace_fails : fails (.replace .staging .install) = true
  others : fails (.readBytes .artifact) = false ∧ fails .mkdirParent = false ∧
    fails (.isFile .install) = false ∧ fails (.unlink .staging) = false ∧
    fails (.isFile .prior) = false ∧ fails (.readBytes .prior) = false

variable {sha256 lower fails}

/-- A call and what follows it. -/
theorem run_callUpdate
    {α : Type} (op : UpdateOp) (next : op.Value → UpdateProgram α) (disk : UpdateDisk) :
    ((callUpdate op).bind next).run (answerUpdate fails) disk =
      match answerUpdate fails op disk with
      | (.ok value, after) => (next value).run (answerUpdate fails) after
      | (.error error, after) => (.error error, after) := by
  rw [callUpdate, Program.bind_eq, Program.bind_assoc, Program.run_bind, Program.run_perform]
  generalize answerUpdate fails op disk = answered
  obtain ⟨result, after⟩ := answered
  cases result with
  | ok value => rfl
  | error error => rfl

/-- A last call. -/
theorem run_callUpdate_last
    (op : UpdateOp) (disk : UpdateDisk) :
    (callUpdate op).run (answerUpdate fails) disk = answerUpdate fails op disk := by
  rw [callUpdate, Program.bind_eq, Program.run_bind, Program.run_perform]
  generalize answerUpdate fails op disk = answered
  obtain ⟨result, after⟩ := answered
  cases result with
  | ok value => rfl
  | error error => rfl

theorem answerUpdate_of_fails
    {op : UpdateOp} (h : fails op = true) (hop : op.isRollback = false) (disk : UpdateDisk) :
    answerUpdate fails op disk = (.error .osError, disk) :=
  if_pos ⟨h, hop⟩

theorem answerUpdate_of_works
    {op : UpdateOp} (h : fails op = false) (disk : UpdateDisk) :
    answerUpdate fails op disk = op.effect disk :=
  if_neg (by simp [h])

theorem answerUpdate_rollback
    (bytes : Bytes) (disk : UpdateDisk) :
    answerUpdate fails (.writeBytes .install bytes) disk =
      (.ok (), Function.update disk .install (some bytes)) :=
  if_neg (by simp [UpdateOp.isRollback])

/-- What is installed after a rollback. -/
theorem run_rollBack
    (fails : UpdateOp → Bool) (disk : UpdateDisk) :
    ∃ error after, rollBack.run (answerUpdate fails) disk = (.error error, after) ∧
      after .install =
        if fails (.unlink .staging) = false ∧ fails (.isFile .prior) = false ∧
            fails (.readBytes .prior) = false ∧ disk .prior ≠ none then
          disk .prior
        else
          disk .install := by
  rw [rollBack, Program.bind_eq, run_callUpdate]
  cases hunlink : fails (.unlink .staging) with
  | true =>
      rw [answerUpdate_of_fails hunlink rfl]
      exact ⟨_, _, rfl, by simp⟩
  | false =>
      rw [answerUpdate_of_works hunlink]
      simp only [UpdateOp.effect, Program.bind_eq]
      rw [run_callUpdate]
      cases hfile : fails (.isFile .prior) with
      | true =>
          rw [answerUpdate_of_fails hfile rfl]
          exact ⟨_, _, rfl, by simp⟩
      | false =>
          rw [answerUpdate_of_works hfile]
          cases hprior : disk .prior with
          | none =>
              refine ⟨.updateError "failed to replace installed file; rolled back to the prior version",
                Function.update disk .staging none, ?_, by simp⟩
              simp [UpdateOp.effect, hprior]
          | some previous =>
              simp only [UpdateOp.effect, hprior, Function.update_of_ne, ne_eq, reduceCtorEq,
                not_false_eq_true, Option.isSome_some, if_true]
              rw [run_callUpdate]
              cases hread : fails (.readBytes .prior) with
              | true =>
                  rw [answerUpdate_of_fails hread rfl]
                  exact ⟨_, _, rfl, by simp⟩
              | false =>
                  rw [answerUpdate_of_works hread]
                  simp only [UpdateOp.effect, hprior, Function.update_of_ne, ne_eq, reduceCtorEq,
                    not_false_eq_true]
                  rw [run_callUpdate, answerUpdate_rollback]
                  exact ⟨_, _, rfl, by simp⟩

/-- What the backup leaves: no other file changes, and `.prior` is the installed file where
there was one. -/
theorem run_backUp
    (fails : UpdateOp → Bool) (disk : UpdateDisk) :
    match backUp.run (answerUpdate fails) disk with
    | (.ok _, after) =>
        (∀ file, file ≠ .prior → after file = disk file) ∧
          fails (.isFile .install) = false ∧
          (disk .install = none → after = disk) ∧
          (disk .install ≠ none → after .prior = disk .install)
    | (.error _, after) =>
        after = disk ∧ (disk .install = none → fails (.isFile .install) = true) := by
  rw [backUp, Program.bind_eq, run_callUpdate]
  cases hfile : fails (.isFile .install) with
  | true =>
      rw [answerUpdate_of_fails hfile rfl]
      simp
  | false =>
      rw [answerUpdate_of_works hfile]
      simp only [UpdateOp.effect]
      cases hinstall : disk .install with
      | none =>
          exact ⟨fun _ _ => rfl, trivial, fun _ => rfl, fun h => absurd rfl h⟩
      | some installed =>
          simp only [Option.isSome_some, if_true, Program.bind_eq]
          rw [run_callUpdate]
          cases hread : fails (.readBytes .install) with
          | true =>
              rw [answerUpdate_of_fails hread rfl]
              simp
          | false =>
              rw [answerUpdate_of_works hread]
              simp only [UpdateOp.effect, hinstall]
              rw [run_callUpdate_last]
              cases hwrite : fails (.writeBytes .prior installed) with
              | true =>
                  rw [answerUpdate_of_fails hwrite rfl]
                  simp
              | false =>
                  rw [answerUpdate_of_works hwrite]
                  simp +contextual [UpdateOp.effect]

/-- The `except` branch, or the end of the update. -/
theorem run_install
    (fails : UpdateOp → Bool) (payload : Bytes) (version : String) (disk : UpdateDisk) :
    match (show UpdateProgram UpdateResult from do
        callUpdate (.writeBytes .staging payload)
        (callUpdate (.replace .staging .install)).catching (fun error =>
          match error with
          | .osError => rollBack
          | error => Program.raise error)
        return ⟨version, .prior⟩).run (answerUpdate fails) disk with
    | (.ok _, after) =>
        after .install = some payload ∧
          ¬ (fails (.writeBytes .staging payload) = false ∧
            fails (.replace .staging .install) = true)
    | (.error _, after) =>
        after .install =
          if fails (.writeBytes .staging payload) = false ∧
              fails (.replace .staging .install) = true ∧ fails (.unlink .staging) = false ∧
              fails (.isFile .prior) = false ∧ fails (.readBytes .prior) = false ∧
              disk .prior ≠ none then
            disk .prior
          else
            disk .install := by
  simp only [Program.bind_eq]
  rw [run_callUpdate]
  cases hwrite : fails (.writeBytes .staging payload) with
  | true =>
      rw [answerUpdate_of_fails hwrite rfl]
      simp
  | false =>
      rw [answerUpdate_of_works hwrite]
      simp only [UpdateOp.effect]
      rw [Program.run_bind, Program.run_catching, run_callUpdate_last]
      cases hreplace : fails (.replace .staging .install) with
      | false =>
          rw [answerUpdate_of_works hreplace]
          simp [UpdateOp.effect, Program.run]
      | true =>
          rw [answerUpdate_of_fails hreplace rfl]
          obtain ⟨error, after, hrun, hafter⟩ :=
            run_rollBack fails (Function.update disk .staging (some payload))
          simp only [hrun]
          simpa using hafter

/-- All that follows the checksum. -/
theorem run_verified
    (fails : UpdateOp → Bool) (payload : Bytes) (version : String) (disk : UpdateDisk) :
    match (show UpdateProgram UpdateResult from do
        callUpdate .mkdirParent
        backUp
        callUpdate (.writeBytes .staging payload)
        (callUpdate (.replace .staging .install)).catching (fun error =>
          match error with
          | .osError => rollBack
          | error => Program.raise error)
        return ⟨version, .prior⟩).run (answerUpdate fails) disk with
    | (.ok _, after) =>
        after .install = some payload ∧
          ¬ (fails (.writeBytes .staging payload) = false ∧
            fails (.replace .staging .install) = true)
    | (.error _, after) =>
        after .install =
          if (fails .mkdirParent = false ∧ fails (.isFile .install) = false ∧
                disk .install = none) ∧
              fails (.writeBytes .staging payload) = false ∧
              fails (.replace .staging .install) = true ∧ fails (.unlink .staging) = false ∧
              fails (.isFile .prior) = false ∧ fails (.readBytes .prior) = false ∧
              disk .prior ≠ none then
            disk .prior
          else
            disk .install := by
  rw [Program.bind_eq, run_callUpdate]
  cases hmkdir : fails .mkdirParent with
  | true =>
      rw [answerUpdate_of_fails hmkdir rfl]
      simp
  | false =>
      rw [answerUpdate_of_works hmkdir]
      simp only [UpdateOp.effect]
      rw [Program.bind_eq, Program.run_bind]
      have hbackUp := run_backUp fails disk
      cases hrun : backUp.run (answerUpdate fails) disk with
      | mk outcome after =>
          rw [hrun] at hbackUp
          cases outcome with
          | error error =>
              obtain ⟨rfl, hfile⟩ := hbackUp
              rw [if_neg (by rintro ⟨⟨_, hok, habsent⟩, _⟩; simp [hfile habsent] at hok)]
          | ok _ =>
              obtain ⟨hother, hfile, habsent, hpresent⟩ := hbackUp
              have hinstall := run_install fails payload version after
              rw [hother .install (by simp)] at hinstall
              by_cases hnone : disk .install = none
              · have hsame := habsent hnone
                subst hsame
                simpa [hfile, hnone] using hinstall
              · rw [hpresent hnone] at hinstall
                simpa [hnone] using hinstall

/-- The stale rollback once the artifact is read and its checksum right. -/
theorem rollsBackStale_iff
    {expectedSha256 : String} {disk : UpdateDisk} {payload : Bytes}
    (hread : fails (.readBytes .artifact) = false)
    (hartifact : disk .artifact = some payload)
    (hsum : lower (sha256 payload) = lower expectedSha256) :
    RollsBackStale sha256 lower fails expectedSha256 disk ↔
      (fails .mkdirParent = false ∧ fails (.isFile .install) = false ∧ disk .install = none) ∧
        fails (.writeBytes .staging payload) = false ∧
        fails (.replace .staging .install) = true ∧ fails (.unlink .staging) = false ∧
        fails (.isFile .prior) = false ∧ fails (.readBytes .prior) = false ∧
        disk .prior ≠ none := by
  constructor
  · rintro ⟨habsent, hstale, ⟨payload', hpayload', _, hwrite⟩, hreplace, hothers⟩
    obtain ⟨_, hmkdir, hfile, hunlink, hprior, hreadPrior⟩ := hothers
    rw [hartifact] at hpayload'
    cases hpayload'
    exact ⟨⟨hmkdir, hfile, habsent⟩, hwrite, hreplace, hunlink, hprior, hreadPrior, hstale⟩
  · rintro ⟨⟨hmkdir, hfile, habsent⟩, hwrite, hreplace, hunlink, hprior, hreadPrior, hstale⟩
    exact ⟨habsent, hstale, ⟨payload, hartifact, hsum, hwrite⟩, hreplace,
      hread, hmkdir, hfile, hunlink, hprior, hreadPrior⟩

/-- The update installs the verified artifact or keeps the installed file, except where it rolls
back to a backup it did not make. -/
theorem installs_or_keeps_iff
    (sha256 : Bytes → String) (lower : String → String) (fails : UpdateOp → Bool)
    (expectedSha256 version : String) (disk : UpdateDisk) :
    InstallsOrKeeps sha256 lower fails expectedSha256 version disk ↔
      ¬ RollsBackStale sha256 lower fails expectedSha256 disk := by
  rw [InstallsOrKeeps, applyUpdate, Program.bind_eq, run_callUpdate]
  cases hread : fails (.readBytes .artifact) with
  | true =>
      rw [answerUpdate_of_fails hread rfl]
      simp only [true_iff]
      intro h
      rw [h.others.1] at hread
      cases hread
  | false =>
      rw [answerUpdate_of_works hread]
      cases hartifact : disk .artifact with
      | none =>
          simp only [UpdateOp.effect, hartifact, true_iff]
          intro h
          obtain ⟨payload, hpayload, _⟩ := h.verified
          rw [hartifact] at hpayload
          cases hpayload
      | some payload =>
          simp only [UpdateOp.effect, hartifact]
          by_cases hsum : lower (sha256 payload) = lower expectedSha256
          · rw [if_neg (by simpa using hsum)]
            have hverified := run_verified fails payload version disk
            rw [rollsBackStale_iff hread hartifact hsum]
            split at hverified
            · next result after hrun =>
                simp only [Program.bind_eq] at hrun ⊢
                rw [hrun]
                obtain ⟨hinstalled, hreplaced⟩ := hverified
                refine iff_of_true ⟨payload, rfl, hinstalled, hsum⟩ ?_
                rintro ⟨_, hwrite, hreplace, _⟩
                exact hreplaced ⟨hwrite, hreplace⟩
            · next error after hrun =>
                simp only [Program.bind_eq] at hrun ⊢
                rw [hrun]
                simp only [hverified]
                split
                · next hstale =>
                    have habsent : disk .install = none := hstale.1.2.2
                    have hprior : disk .prior ≠ none := hstale.2.2.2.2.2.2
                    exact iff_of_false (by rw [habsent]; exact hprior) (not_not_intro hstale)
                · next hfresh => exact iff_of_true rfl hfresh
          · rw [if_pos hsum]
            simp only [Program.run_raise, true_iff]
            intro h
            obtain ⟨_, hpayload, hverified, _⟩ := h.verified
            rw [hartifact] at hpayload
            cases hpayload
            exact hsum hverified

/-- Nothing is installed, the replacement fails, and an older backup becomes the installed file. -/
theorem stale_backup_installed :
    ¬ InstallsOrKeeps
        (fun _ => "ca358758f6d27e6cf45272937977a748fd88391db679ceda7dc7bf1f005ee879") id
        (fun op => op == .replace .staging .install)
        "ca358758f6d27e6cf45272937977a748fd88391db679ceda7dc7bf1f005ee879" "2"
        (fun file =>
          match file with
          | .artifact => some [7]
          | .prior => some [3]
          | _ => none) := by
  intro h
  have hinstalled : some ([3] : Bytes) = none := h
  cases hinstalled

end Update

end Runner
end PrReviewer
