import Mathlib.Data.Set.Basic
import Mathlib.Logic.Function.Basic
import Mathlib.Tactic
import PrReviewer.Lib.Answers
import PrReviewer.Lib.TextMode

/-!
# The secrets of the runner

runner/secrets.py: the store over the keyring of the system, and the store that keeps one file
for each name.  The file store flattens a name to a file name and writes the value as a text.

The directory is one of a POSIX file system: a file name has no null byte and no more than 255
bytes, and different names are different files.  The modes of the files are left out.
-/

namespace PrReviewer
namespace Runner

open Lib

inductive SecretError where
  | unicodeEncodeError
  | embeddedNullByte
  | fileNameTooLong
  | passwordDeleteError
deriving DecidableEq, Repr

inductive SecretOp where
  | set (name value : PyStr)
  | get (name : PyStr)
  | delete (name : PyStr)
deriving DecidableEq, Repr

/-- What a call returns or raises; `set` and `delete` return `None`. -/
abbrev SecretAnswer := Except SecretError (Option PyStr)

/-! ## The keyring -/

/-- The passwords of a keyring, by service and name. -/
abbrev Keyring := PyStr × PyStr → Option PyStr

/-- `delete_password`; a password that is not there cannot be deleted. -/
def deletePassword (service name : PyStr) (passwords : Keyring) :
    Except SecretError Unit × Keyring :=
  match passwords (service, name) with
  | none => (.error .passwordDeleteError, passwords)
  | some _ => (.ok (), Function.update passwords (service, name) none)

/-- `KeyringSecretStore`; `delete` suppresses the exceptions of the backend. -/
def keyringStore (serviceName : PyStr) (passwords : Keyring) : SecretOp → SecretAnswer × Keyring
  | .set name value => (.ok none, Function.update passwords (serviceName, name) (some value))
  | .get name => (.ok (passwords (serviceName, name)), passwords)
  | .delete name => (.ok none, (deletePassword serviceName name passwords).2)

/-! ## The files -/

/-- The files of the directory, by the bytes of their names. -/
abbrev SecretFiles := List UInt8 → Option String

/-- `name.replace("/", "_").replace("\\", "_")`. -/
def safeName (name : PyStr) : PyStr where
  points := name.points.map (fun c => if c.val = 0x2f ∨ c.val = 0x5c then 0x5f else c)

/-- `_path_for`, as the system is given it. -/
def pathFor (name : PyStr) : Except SecretError (List UInt8) :=
  match fsencode (safeName name ++ .ofString ".secret") with
  | none => .error .unicodeEncodeError
  | some bytes =>
      if 0 ∈ bytes then .error .embeddedNullByte
      else if 255 < bytes.length then .error .fileNameTooLong
      else .ok bytes

/-- `path.write_text(value, encoding="utf-8")`: the file is open, and empty, when the value is
encoded. -/
def writeText (path : List UInt8) (value : PyStr) (files : SecretFiles) :
    SecretAnswer × SecretFiles :=
  match value.text? with
  | none => (.error .unicodeEncodeError, Function.update files path (some ""))
  | some text => (.ok none, Function.update files path (some text))

/-- `path.read_text(encoding="utf-8")` of a file that exists. -/
def readText (path : List UInt8) (files : SecretFiles) : Option PyStr :=
  (files path).map (fun text => universalNewlines (.ofString text))

/-- `FileSecretStore`; a path that cannot be encoded does not exist, and one that is too long
cannot be looked for. -/
def fileStore (files : SecretFiles) : SecretOp → SecretAnswer × SecretFiles
  | .set name value =>
      match pathFor name with
      | .error error => (.error error, files)
      | .ok path => writeText path value files
  | .get name =>
      match pathFor name with
      | .error .fileNameTooLong => (.error .fileNameTooLong, files)
      | .error _ => (.ok none, files)
      | .ok path => (.ok (readText path files), files)
  | .delete name =>
      match pathFor name with
      | .error error => (.error error, files)
      | .ok path => (.ok none, Function.update files path none)

/-! ## The two stores -/

section Stores

variable {names values : Set PyStr}

/-- An operation on one of the names, with one of the values. -/
def SecretOp.Uses (names values : Set PyStr) : SecretOp → Prop
  | .set name value => name ∈ names ∧ value ∈ values
  | .get name => name ∈ names
  | .delete name => name ∈ names

/-- The two stores answer alike, from the first operation on. -/
def StoresAgree (serviceName : PyStr) (names values : Set PyStr) : Prop :=
  ∀ ops : List SecretOp, (∀ op ∈ ops, op.Uses names values) →
    answersFrom fileStore (fun _ => none) ops =
      answersFrom (keyringStore serviceName) (fun _ => none) ops

/-- The name can be the name of a file. -/
def Storable (name : PyStr) : Prop :=
  ∃ path, pathFor name = .ok path

/-- The value is read as it was written. -/
def Plain (value : PyStr) : Prop :=
  value.text?.isSome = true ∧ carriageReturn ∉ value.points

/-- Every name has a file of its own and every value is kept. -/
structure FilesSuffice (names values : Set PyStr) : Prop where
  storable : ∀ name ∈ names, Storable name
  distinct : ∀ name ∈ names, ∀ other ∈ names, values.Nonempty →
    pathFor name = pathFor other → name = other
  plain : ∀ value ∈ values, names.Nonempty → Plain value

/-- A file holds what the keyring holds under its name, one of the values. -/
def Stored (serviceName : PyStr) (names values : Set PyStr) (files : SecretFiles)
    (passwords : Keyring) : Prop :=
  ∀ name ∈ names, ∀ path, pathFor name = .ok path →
    (files path).map PyStr.ofString = passwords (serviceName, name) ∧
      ∀ value ∈ passwords (serviceName, name), value ∈ values

theorem deletePassword_passwords
    (service name : PyStr) (passwords : Keyring) :
    (deletePassword service name passwords).2 =
      Function.update passwords (service, name) none := by
  rw [deletePassword]
  split
  · next hnone => rw [← hnone, Function.update_eq_self]
  · rfl

/-- A change of a file and of the password under its name. -/
theorem Stored.update
    {serviceName name : PyStr} {files : SecretFiles} {passwords : Keyring} {path : List UInt8}
    (h : Stored serviceName names values files passwords)
    (hdistinct : ∀ other ∈ names, values.Nonempty → pathFor name = pathFor other → name = other)
    (hpath : pathFor name = .ok path)
    {text : Option String}
    (htext : ∀ value ∈ text.map PyStr.ofString, value ∈ values) :
    Stored serviceName names values (Function.update files path text)
      (Function.update passwords (serviceName, name) (text.map PyStr.ofString)) := by
  intro other hother path' hpath'
  by_cases hsame : other = name
  · subst hsame
    have heq : path' = path := Except.ok.inj (hpath'.symm.trans hpath)
    rw [heq, Function.update_self, Function.update_self]
    exact ⟨rfl, htext⟩
  · have hkey : (serviceName, other) ≠ (serviceName, name) :=
      fun heq => hsame (congrArg Prod.snd heq)
    rw [Function.update_of_ne hkey]
    by_cases hfile : path' = path
    · -- Two names have one file only where there is no value to tell them apart.
      subst hfile
      have hempty : ∀ value, value ∉ values := fun value hvalue =>
        hsame (hdistinct other hother ⟨value, hvalue⟩ (hpath.trans hpath'.symm)).symm
      obtain ⟨_, hkept⟩ := h other hother path' hpath'
      refine ⟨?_, hkept⟩
      rw [Function.update_self, Option.eq_none_iff_forall_not_mem.mpr
          (fun value hvalue => hempty value (htext value hvalue)),
        Option.eq_none_iff_forall_not_mem.mpr
          (fun value hvalue => hempty value (hkept value hvalue))]
    · rw [Function.update_of_ne hfile]
      exact h other hother path' hpath'

/-- One operation on the two stores. -/
theorem stored_step
    {serviceName : PyStr} {files : SecretFiles} {passwords : Keyring} {op : SecretOp}
    (hsuffice : FilesSuffice names values)
    (huses : op.Uses names values)
    (h : Stored serviceName names values files passwords) :
    (fileStore files op).1 = (keyringStore serviceName passwords op).1 ∧
      Stored serviceName names values (fileStore files op).2
        (keyringStore serviceName passwords op).2 := by
  cases op with
  | set name value =>
      obtain ⟨hname, hvalue⟩ := huses
      obtain ⟨path, hpath⟩ := hsuffice.storable name hname
      obtain ⟨text, htext⟩ :=
        Option.isSome_iff_exists.mp (hsuffice.plain value hvalue ⟨name, hname⟩).1
      have hsame : some value = (some text).map PyStr.ofString :=
        congrArg some (PyStr.eq_ofString htext)
      simp only [fileStore, keyringStore, hpath, writeText, htext]
      refine ⟨trivial, ?_⟩
      rw [hsame]
      refine h.update (hsuffice.distinct name hname) hpath (fun other hother => ?_)
      rw [← hsame, Option.mem_some_iff] at hother
      exact hother ▸ hvalue
  | get name =>
      obtain ⟨path, hpath⟩ := hsuffice.storable name huses
      obtain ⟨hfile, hkept⟩ := h name huses path hpath
      simp only [fileStore, keyringStore, hpath, readText]
      refine ⟨?_, h⟩
      rw [← hfile]
      cases htext : files path with
      | none => rfl
      | some text =>
          rw [htext] at hfile
          have hvalue : PyStr.ofString text ∈ values := hkept _ (hfile.symm ▸ rfl)
          have hplain := (hsuffice.plain _ hvalue ⟨name, huses⟩).2
          simp only [Option.map_some, universalNewlines_eq_self_iff.mpr hplain]
  | delete name =>
      obtain ⟨path, hpath⟩ := hsuffice.storable name huses
      simp only [fileStore, keyringStore, hpath, deletePassword_passwords]
      refine ⟨trivial, ?_⟩
      exact h.update (hsuffice.distinct name huses) hpath (fun other hother => nomatch hother)

/-- A single operation tells a name that cannot be stored. -/
theorem storable_of_agree
    {serviceName name : PyStr}
    (h : StoresAgree serviceName names values) (hname : name ∈ names) :
    Storable name := by
  have hanswers := h [.delete name] (by simpa [SecretOp.Uses] using hname)
  simp only [answersFrom_cons, answersFrom_nil, keyringStore, fileStore] at hanswers
  cases hpath : pathFor name with
  | ok path => exact ⟨path, hpath⟩
  | error error =>
      rw [hpath] at hanswers
      simp at hanswers

/-- Setting a value and getting it tells whether it is kept. -/
theorem plain_of_agree
    {serviceName name value : PyStr}
    (h : StoresAgree serviceName names values) (hname : name ∈ names) (hvalue : value ∈ values) :
    Plain value := by
  obtain ⟨path, hpath⟩ := storable_of_agree h hname
  have hanswers := h [.set name value, .get name] (by simp [SecretOp.Uses, hname, hvalue])
  simp only [answersFrom_cons, answersFrom_nil, keyringStore, fileStore, hpath, writeText,
    readText, Function.update_self] at hanswers
  cases htext : value.text? with
  | none =>
      rw [htext] at hanswers
      simp at hanswers
  | some text =>
      rw [htext] at hanswers
      simp only [Function.update_self, Option.map_some, List.cons.injEq, Except.ok.injEq,
        Option.some.injEq, true_and, and_true] at hanswers
      rw [PyStr.eq_ofString htext] at hanswers ⊢
      exact ⟨by rw [PyStr.text?_ofString]; rfl, universalNewlines_eq_self_iff.mp hanswers⟩

/-- Setting one name and getting another tells whether they have the same file. -/
theorem distinct_of_agree
    {serviceName name other value : PyStr}
    (h : StoresAgree serviceName names values) (hname : name ∈ names) (hother : other ∈ names)
    (hvalue : value ∈ values) (hfile : pathFor name = pathFor other) :
    name = other := by
  obtain ⟨path, hpath⟩ := storable_of_agree h hname
  obtain ⟨text, htext⟩ := Option.isSome_iff_exists.mp (plain_of_agree h hname hvalue).1
  by_contra hne
  have hanswers := h [.set name value, .get other] (by simp [SecretOp.Uses, hname, hother, hvalue])
  have hkey : (serviceName, other) ≠ (serviceName, name) :=
    fun heq => hne (congrArg Prod.snd heq).symm
  simp [keyringStore, fileStore, ← hfile, hpath, writeText, htext, readText,
    Function.update_of_ne hkey] at hanswers

/-- The file store and the keyring answer alike to all operations on some names with some values
exactly where every name has a file of its own and every value is kept. -/
theorem stores_agree_iff
    (serviceName : PyStr) (names values : Set PyStr) :
    StoresAgree serviceName names values ↔ FilesSuffice names values := by
  constructor
  · intro h
    exact {
      storable := fun name hname => storable_of_agree h hname
      distinct := fun name hname other hother ⟨value, hvalue⟩ hfile =>
        distinct_of_agree h hname hother hvalue hfile
      plain := fun value hvalue ⟨name, hname⟩ => plain_of_agree h hname hvalue }
  · intro hsuffice ops hops
    have hstep : ∀ files passwords (op : SecretOp), op.Uses names values →
        Stored serviceName names values files passwords →
          (fileStore files op).1 = (keyringStore serviceName passwords op).1 ∧
            Stored serviceName names values (fileStore files op).2
              (keyringStore serviceName passwords op).2 :=
      fun files passwords op huses hstored => stored_step hsuffice huses hstored
    have hempty : Stored serviceName names values (fun _ => none) (fun _ => none) :=
      fun name hname path hpath => ⟨rfl, fun value hvalue => nomatch hvalue⟩
    exact answersFrom_eq hstep hempty hops

/-- The line ends of a value with carriage returns are not kept. -/
theorem carriage_return_lost :
    ¬ StoresAgree (.ofString "pr-reviewer") Set.univ Set.univ := by
  intro h
  have hanswers := h [.set (.ofString "model_key") (.ofString "-----BEGIN KEY-----\r\n"),
    .get (.ofString "model_key")] (by simp [SecretOp.Uses])
  revert hanswers
  decide +kernel

end Stores

end Runner
end PrReviewer
