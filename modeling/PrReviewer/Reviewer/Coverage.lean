import Mathlib.Data.List.Basic
import Mathlib.Tactic
import PrReviewer.Reviewer.DiffBudget
import PrReviewer.Reviewer.PatchText
import PrReviewer.Runner.RepositoryFallback

/-!
# Full coverage of a pull request

`pack_diff(ensure_complete_diff(snapshot))` as a whole: a file is included or omitted,
an included file is rendered from its patch, and its patch is GitHub's or what
`recover_patch` returned.

GitHub's patch is shown completely where no line of it is cut at a line break of
Python's.  `recover_patch` returns the text of the whole file, in which the renderer
finds no hunks: such a file is included with nothing of its change.
-/

namespace PrReviewer
namespace Reviewer

open Lib
open Github
open Hosted
open Runner

/-! ## Packing -/

section Packing

variable {tables : UnicodeTables}
variable {hexdigest : HexDigest}
variable {countTokens : PyStr → Int}
variable {options : PackOptions}

/-- The item of an included file holds its rendered patch. -/
def ItemOf (tables : UnicodeTables) (options : PackOptions) (file : PullRequestFile)
    (item : ReviewContextItem) : Prop :=
  item.filePath = file.path ∧ ∃ h : classify options file = none,
    renderHunks tables (filePatch file (patch_of_classify h)) = .ok item.content

/-- What the loop of `pack_diff` has done with the files it is through with. -/
structure Packing.Accounts (tables : UnicodeTables) (options : PackOptions)
    (packing : Packing) (files : List PullRequestFile) : Prop where
  placed : ∀ file ∈ files,
    (∃ item ∈ packing.items, ItemOf tables options file item) ∨
      ∃ omitted ∈ packing.omitted, omitted.path = file.path
  items : ∀ item ∈ packing.items, ∃ file ∈ files, ItemOf tables options file item

theorem contextItem_ok
    {file : PullRequestFile} {content : PyStr} {item : ReviewContextItem}
    (h : contextItem tables hexdigest file content = .ok item) :
    item.filePath = file.path ∧ item.content = content := by
  obtain ⟨⟨lineStart, lineEnd⟩, _, h⟩ := bind_eq_ok h
  simp only at h
  split at h
  · cases h
  · split at h
    · cases h
      exact ⟨rfl, rfl⟩
    · cases h

/-- One round of the loop. -/
theorem packFile_accounts
    {packing next : Packing} {file : PullRequestFile} {files : List PullRequestFile}
    (hpacking : packing.Accounts tables options files)
    (h : packFile tables hexdigest countTokens options packing file = .ok next) :
    next.Accounts tables options (files ++ [file]) := by
  have homit : ∀ reason, (packing.omit file reason).Accounts tables options (files ++ [file]) := by
    intro reason
    constructor
    · intro other hother
      rcases List.mem_append.mp hother with hother | hother
      · rcases hpacking.placed other hother with hitem | ⟨omitted, hmem, hpath⟩
        · exact .inl hitem
        · exact .inr ⟨omitted, List.mem_append_left _ hmem, hpath⟩
      · rw [List.mem_singleton] at hother
        subst hother
        exact .inr ⟨_, List.mem_append_right _ (List.mem_singleton_self _), rfl⟩
    · intro item hitem
      obtain ⟨other, hother, hof⟩ := hpacking.items item hitem
      exact ⟨other, List.mem_append_left _ hother, hof⟩
  unfold packFile at h
  split at h
  · cases h
    exact homit _
  · next hclass =>
      obtain ⟨content, hcontent, h⟩ := bind_eq_ok h
      simp only at h
      split at h
      · cases h
        exact homit _
      · obtain ⟨item, hitem, h⟩ := bind_eq_ok h
        cases h
        obtain ⟨hpath, rfl⟩ := contextItem_ok hitem
        have hof : ItemOf tables options file item := ⟨hpath, hclass, hcontent⟩
        constructor
        · intro other hother
          rcases List.mem_append.mp hother with hother | hother
          · rcases hpacking.placed other hother with ⟨old, hmem, hold⟩ | homitted
            · exact .inl ⟨old, List.mem_append_left _ hmem, hold⟩
            · exact .inr homitted
          · rw [List.mem_singleton] at hother
            subst hother
            exact .inl ⟨item, List.mem_append_right _ (List.mem_singleton_self _), hof⟩
        · intro old hold
          rcases List.mem_append.mp hold with hold | hold
          · obtain ⟨other, hother, hofOther⟩ := hpacking.items old hold
            exact ⟨other, List.mem_append_left _ hother, hofOther⟩
          · rw [List.mem_singleton] at hold
            subst hold
            exact ⟨file, List.mem_append_right _ (List.mem_singleton_self _), hof⟩

/-- The loop over the files. -/
theorem foldlM_packFile_accounts
    {packing final : Packing} {files rest : List PullRequestFile}
    (hpacking : packing.Accounts tables options files)
    (h : rest.foldlM (packFile tables hexdigest countTokens options) packing = .ok final) :
    final.Accounts tables options (files ++ rest) := by
  induction rest generalizing packing files with
  | nil =>
      cases h
      simpa using hpacking
  | cons file rest ih =>
      rw [List.foldlM_cons] at h
      obtain ⟨next, hnext, h⟩ := bind_eq_ok h
      have hfinal := ih (packFile_accounts hpacking hnext) h
      simpa using hfinal

/-- What a packed diff says of the files of the snapshot. -/
theorem packDiff_accounts
    {snapshot : PullRequestSnapshot} {budget : ContextBudget} {packed : PackedDiff}
    (h : packDiff tables hexdigest countTokens options snapshot budget = .ok packed) :
    (∀ file ∈ snapshot.files,
      (∃ item ∈ packed.items, ItemOf tables options file item) ∨
        ∃ omitted ∈ packed.omittedFiles, omitted.path = file.path) ∧
    (∀ item ∈ packed.items, ∃ file ∈ snapshot.files, ItemOf tables options file item) ∧
    (packed.coversAllChangedFiles = true ↔ packed.omittedFiles = []) := by
  obtain ⟨packing, hpacking, h⟩ := bind_eq_ok h
  have hstart : (Packing.mk budget.tokens [] [] []).Accounts tables options [] := by
    constructor
    · intro file hfile
      cases hfile
    · intro item hitem
      cases hitem
  have haccounts := foldlM_packFile_accounts hstart hpacking
  have hperm : (orderedFiles options snapshot.files).Perm snapshot.files :=
    List.perm_insertionSort _ _
  simp only at h
  split at h
  · cases h
  · cases h
    refine ⟨?_, ?_, ?_⟩
    · intro file hfile
      exact haccounts.placed file (hperm.mem_iff.mpr hfile)
    · intro item hitem
      obtain ⟨file, hfile, hof⟩ := haccounts.items item hitem
      exact ⟨file, hperm.mem_iff.mp hfile, hof⟩
    · simp

end Packing

/-! ## What is reported -/

section Reporting

variable (tables : UnicodeTables)
variable (options : PackOptions)
variable (fetcher : BoundedCloneFetcher)
variable (snapshot : PullRequestSnapshot)

/-- GitHub sends the patch of the change, or none. -/
def Supplied (file : PullRequestFile) (change : Change) : Prop :=
  hasText file.patch = true → file.patch = some (patchText change)

/-- The file is omitted for what the snapshot or the options say of it. -/
def SetAside (file : PullRequestFile) : Prop :=
  file.binary = true ∨ file.truncated = true ∨
    inPaths options.generatedPaths file.path = true ∨
    inPaths options.ignoredPaths file.path = true ∨
    (hasText file.patch = true ∧ file.omissionReason.isSome = true)

/-- The clone has a text that stands in for the patch GitHub did not send. -/
def Recovers (file : PullRequestFile) (text : PyStr) : Prop :=
  hasText file.patch = false ∧ text.points ≠ [] ∧ ∃ identity,
    snapshot.identity = some identity ∧
    fetcher.recoverPatch identity file.path snapshot.baseSha snapshot.headSha = .ok (some text)

/--
GitHub's patch is not cut inside a line, and no text of a whole file stands in for the
patch of a change that has lines.
-/
def Sound (file : PullRequestFile) (change : Change) : Prop :=
  SetAside options file ∨
    (hasText file.patch = true → change.Unbroken) ∧
      ∀ text, Recovers fetcher snapshot file text →
        change.addedLines = [] ∧ change.removedLines = []

/-- The item of the file shows its change. -/
def ShownIn (packed : PackedDiff) (file : PullRequestFile) (change : Change) : Prop :=
  ∃ item ∈ packed.items, item.filePath = file.path ∧ Shows item.content change

/-- The file is listed with a reason. -/
def OmittedIn (packed : PackedDiff) (file : PullRequestFile) : Prop :=
  ∃ omitted ∈ packed.omittedFiles, omitted.path = file.path

/--
Nothing of a patch the renderer cuts up can pass for a line of the change: paths, kept
lines and headings have no line break in them, the text of a whole file has no line
like a header, and no change only removes empty lines.
-/
structure Plain (changes : List (PullRequestFile × Change)) : Prop where
  distinct : (changes.map (fun p => p.1.path)).Nodup
  paths : ∀ p ∈ changes, Unbroken (.ofString p.1.path) ∧
    ∀ previous, p.1.previousPath = some previous → Unbroken previous
  kept : ∀ p ∈ changes, ∀ hunk ∈ p.2, Unbroken hunk.heading ∧
    ∀ line ∈ hunk.lines, line.mark = .context → Unbroken line.text
  headerless : ∀ p ∈ changes, ∀ text, Recovers fetcher snapshot p.1 text →
    ∀ line ∈ text.splitlines, hunkHeader tables line = none
  visible : ∀ p ∈ changes, p.2.addedLines = [] →
    (∀ text ∈ p.2.removedLines, text.points = []) → p.2.removedLines = []

end Reporting

section Included

variable {tables : UnicodeTables}
variable {options : PackOptions}
variable {fetcher : BoundedCloneFetcher}
variable {snapshot : PullRequestSnapshot}

/-- Where the patch of an included file comes from. -/
theorem included_patch
    {file completed : PullRequestFile} {change : Change}
    (hsupplied : Supplied file change)
    (hcomplete : completeFile snapshot fetcher.recoverPatch file = .ok completed)
    (hclass : classify options completed = none) :
    ¬ SetAside options file ∧
      ((hasText file.patch = true ∧ completed.patch = some (patchText change)) ∨
        ∃ text, Recovers fetcher snapshot file text ∧ completed.patch = some text) := by
  obtain ⟨hreason, hbinary, hgenerated, hignored, htruncated, htext⟩ :=
    classify_eq_none_iff.mp hclass
  rcases completeFile_patch hcomplete hreason with
    ⟨hpatch, rfl⟩ | ⟨hpatch, identity, text, hidentity, hfetch, hfileBinary, hfileTruncated, rfl⟩
  · refine ⟨?_, .inl ⟨hpatch, hsupplied hpatch⟩⟩
    simp [SetAside, hbinary, hgenerated, hignored, htruncated, hreason]
  · refine ⟨?_, .inr ⟨text, ⟨hpatch, ?_, identity, hidentity, hfetch⟩, rfl⟩⟩
    · simp only at hgenerated hignored
      simp [SetAside, hfileBinary, hfileTruncated, hgenerated, hignored, hpatch]
    · simpa [hasText] using htext

/-- The item of a file whose patch is sound shows its change. -/
theorem shows_of_sound
    {file completed : PullRequestFile} {change : Change} {item : ReviewContextItem}
    (hsupplied : Supplied file change)
    (hcomplete : completeFile snapshot fetcher.recoverPatch file = .ok completed)
    (hitem : ItemOf tables options completed item)
    (hsound : Sound options fetcher snapshot file change) :
    Shows item.content change := by
  obtain ⟨_, hclass, hrender⟩ := hitem
  obtain ⟨haside, hpatch⟩ := included_patch hsupplied hcomplete hclass
  rcases hsound with hsound | ⟨hunbroken, hrecovers⟩
  · exact absurd hsound haside
  · rcases hpatch with ⟨htext, hpatch⟩ | ⟨text, htext, _⟩
    · have hgiven : (filePatch completed (patch_of_classify hclass)).patch =
          patchText change := by simp [filePatch, hpatch]
      rw [renderHunks_patchText hgiven (hunbroken htext) hrender]
      exact shows_renderedBlocks _ change
    · obtain ⟨hadded, hremoved⟩ := hrecovers text htext
      simp [Shows, hadded, hremoved]

/-- A line that is cut is not shown. -/
theorem not_mem_lines_of_broken
    {text line : PyStr}
    (htext : ∀ c ∈ text.points, isLineBreak c = true → c = newline)
    (hline : newline ∉ line.points)
    (hbroken : ¬ Unbroken line) :
    line ∉ text.lines := by
  intro hmem
  apply hbroken
  intro c hc
  by_contra hbreak
  have hnewline := htext c (subset_of_mem_lines hmem hc) (by simpa using hbreak)
  exact hline (hnewline ▸ hc)

/-- A change whose added and removed lines are not cut, and its other lines neither. -/
theorem unbroken_of_shown
    {content : PyStr} {change : Change}
    (hbreaks : ∀ c ∈ content.points, isLineBreak c = true → c = newline)
    (hkept : ∀ hunk ∈ change, Unbroken hunk.heading ∧
      ∀ line ∈ hunk.lines, line.mark = .context → Unbroken line.text)
    (hshows : Shows content change) :
    change.Unbroken := by
  intro hunk hhunk
  obtain ⟨hheading, hcontext⟩ := hkept hunk hhunk
  refine ⟨hheading, fun line hline => ?_⟩
  by_contra hbroken
  cases hmark : line.mark with
  | context => exact hbroken (hcontext line hline hmark)
  | added =>
      obtain ⟨number, hadded⟩ := exists_mem_addedFrom hunk.newStart hline hmark
      have hshown := hshows.1.subset
        (List.mem_map_of_mem (List.mem_flatMap.mpr ⟨hunk, hhunk, hadded⟩))
      refine not_mem_lines_of_broken hbreaks (newline_not_mem_numbered line.text_line) ?_ hshown
      exact fun hwhole => hbroken (fun c hc => hwhole c (List.mem_append_right _ hc))
  | removed =>
      have hremoved : line.text ∈ change.removedLines :=
        List.mem_flatMap.mpr ⟨hunk, hhunk, List.mem_map_of_mem
          (List.mem_filter.mpr ⟨hline, by simp [hmark]⟩)⟩
      exact not_mem_lines_of_broken hbreaks line.text_line hbroken
        (hshows.2.subset hremoved)

/-- Nothing is rendered of a text without a header. -/
theorem renderHunks_headerless
    {filePatch : FilePatch} {content : PyStr}
    (hlines : ∀ line ∈ filePatch.patch.splitlines, hunkHeader tables line = none)
    (h : renderHunks tables filePatch = .ok content) :
    content = ⟨[]⟩ := by
  have hnone : ∀ lines : List PyStr, (∀ line ∈ lines, hunkHeader tables line = none) →
      parseHunksFrom tables none lines = .ok [] := by
    intro lines hlines
    induction lines with
    | nil => rfl
    | cons line lines ih =>
        rw [parseHunksFrom, hlines line (List.mem_cons_self ..)]
        exact ih (fun other hother => hlines other (List.mem_cons_of_mem line hother))
  rw [renderHunks, parseHunks, hnone _ hlines, ok_bind] at h
  cases h
  rfl

/-- An empty item shows no change with lines to see. -/
theorem lines_of_shows_empty
    {change : Change}
    (hvisible : change.addedLines = [] →
      (∀ text ∈ change.removedLines, text.points = []) → change.removedLines = [])
    (hshows : Shows ⟨[]⟩ change) :
    change.addedLines = [] ∧ change.removedLines = [] := by
  have hempty : ∀ line : PyStr, line ∈ (PyStr.mk []).lines → line.points = [] := by
    intro line hline
    exact List.subset_nil.mp (subset_of_mem_lines hline)
  have hadded : change.addedLines = [] := by
    rw [List.eq_nil_iff_forall_not_mem]
    intro line hline
    have hnil := hempty _ (hshows.1.subset (List.mem_map_of_mem hline))
    simp [numbered, decimal_ne_nil] at hnil
  exact ⟨hadded, hvisible hadded (fun text htext => hempty text (hshows.2.subset htext))⟩

end Included

/-! ## Coverage -/

section Coverage

variable {tables : UnicodeTables}
variable {hexdigest : HexDigest}
variable {countTokens : PyStr → Int}
variable {options : PackOptions}
variable {fetcher : BoundedCloneFetcher}
variable {snapshot completed : PullRequestSnapshot}
variable {changes : List (PullRequestFile × Change)}

/-- Completing the files of a snapshot. -/
theorem mem_of_ensureCompleteDiff
    (h : ensureCompleteDiff snapshot fetcher.recoverPatch = .ok completed) :
    (∀ file ∈ snapshot.files, ∃ done ∈ completed.files,
      completeFile snapshot fetcher.recoverPatch file = .ok done) ∧
    ∀ done ∈ completed.files, ∃ file ∈ snapshot.files,
      completeFile snapshot fetcher.recoverPatch file = .ok done := by
  obtain ⟨files, hfiles, h⟩ := bind_eq_ok h
  cases h
  exact mem_of_mapM_eq_ok hfiles

/-- The item of a path is that of the one file with the path. -/
theorem file_of_item
    (hfiles : snapshot.files = changes.map Prod.fst)
    (hdistinct : (changes.map (fun p => p.1.path)).Nodup)
    (hcomplete : ensureCompleteDiff snapshot fetcher.recoverPatch = .ok completed)
    {p : PullRequestFile × Change} (hp : p ∈ changes)
    {done : PullRequestFile} (hdone : done ∈ completed.files)
    (hpath : done.path = p.1.path) :
    completeFile snapshot fetcher.recoverPatch p.1 = .ok done := by
  obtain ⟨file, hfile, hof⟩ := (mem_of_ensureCompleteDiff hcomplete).2 done hdone
  rw [hfiles] at hfile
  obtain ⟨q, hq, rfl⟩ := List.mem_map.mp hfile
  have hsame : q.1.path = p.1.path := (completeFile_path hof).1.symm.trans hpath
  obtain rfl : q = p := List.inj_on_of_nodup_map hdistinct hq hp hsame
  exact hof

/-- An item that shows the change of a plain file is rendered from a sound patch. -/
theorem sound_of_shown
    {packed : PackedDiff} {budget : ContextBudget}
    (hfiles : snapshot.files = changes.map Prod.fst)
    (hsupplied : ∀ p ∈ changes, Supplied p.1 p.2)
    (hcomplete : ensureCompleteDiff snapshot fetcher.recoverPatch = .ok completed)
    (hpack : packDiff tables hexdigest countTokens options completed budget = .ok packed)
    (hplain : Plain tables fetcher snapshot changes)
    {p : PullRequestFile × Change} (hp : p ∈ changes)
    (hshown : ShownIn packed p.1 p.2) :
    Sound options fetcher snapshot p.1 p.2 := by
  obtain ⟨item, hitem, hpath, hshows⟩ := hshown
  obtain ⟨done, hdone, hof⟩ := (packDiff_accounts hpack).2.1 item hitem
  obtain ⟨hitemPath, hclass, hrender⟩ := hof
  have hone := file_of_item hfiles hplain.distinct hcomplete hp hdone
    (hitemPath.symm.trans hpath)
  obtain ⟨hdonePath, hdonePrevious⟩ := completeFile_path hone
  obtain ⟨hunbrokenPath, hunbrokenPrevious⟩ := hplain.paths p hp
  have hnew : Unbroken (.ofString done.path) := hdonePath ▸ hunbrokenPath
  have hold : Unbroken (oldPath (filePatch done (patch_of_classify hclass))) := by
    unfold oldPath
    split
    · exact hnew
    · next previous hprevious =>
        split
        · exact hnew
        · exact hunbrokenPrevious previous (hdonePrevious ▸ hprevious)
  have hbreaks := renderHunks_breaks hnew hold hrender
  obtain ⟨_, hpatch⟩ := included_patch (hsupplied p hp) hone hclass
  refine .inr ⟨fun _ => unbroken_of_shown hbreaks (hplain.kept p hp) hshows, ?_⟩
  intro text htext
  rcases hpatch with ⟨hgiven, _⟩ | ⟨found, hfound, hdonePatch⟩
  · have hmissing := htext.1
    simp [hgiven] at hmissing
  · have hlines : ∀ line ∈ (filePatch done (patch_of_classify hclass)).patch.splitlines,
        hunkHeader tables line = none := by
      have hgiven : (filePatch done (patch_of_classify hclass)).patch = found := by
        simp [filePatch, hdonePatch]
      rw [hgiven]
      exact hplain.headerless p hp found hfound
    rw [renderHunks_headerless hlines hrender] at hshows
    exact lines_of_shows_empty (hplain.visible p hp) hshows

/--
A sound file is shown completely or listed with a reason, in a report of full coverage
shown; and where nothing cut up can pass for a line of a change, full coverage is
reported rightly exactly when every file is sound.
-/
theorem full_coverage_sound
    {packed : PackedDiff} {budget : ContextBudget}
    (hfiles : snapshot.files = changes.map Prod.fst)
    (hsupplied : ∀ p ∈ changes, Supplied p.1 p.2)
    (hcomplete : ensureCompleteDiff snapshot fetcher.recoverPatch = .ok completed)
    (hpack : packDiff tables hexdigest countTokens options completed budget = .ok packed) :
    (∀ p ∈ changes, Sound options fetcher snapshot p.1 p.2 →
      (ShownIn packed p.1 p.2 ∨ OmittedIn packed p.1) ∧
      (packed.coversAllChangedFiles = true → ShownIn packed p.1 p.2)) ∧
    (Plain tables fetcher snapshot changes → packed.coversAllChangedFiles = true →
      ((∀ p ∈ changes, ShownIn packed p.1 p.2) ↔
        ∀ p ∈ changes, Sound options fetcher snapshot p.1 p.2)) := by
  obtain ⟨hplaced, _, hcovers⟩ := packDiff_accounts hpack
  have hreported : ∀ p ∈ changes, Sound options fetcher snapshot p.1 p.2 →
      ShownIn packed p.1 p.2 ∨ OmittedIn packed p.1 := by
    intro p hp hsound
    have hfile : p.1 ∈ snapshot.files := hfiles ▸ List.mem_map_of_mem hp
    obtain ⟨done, hdone, hone⟩ := (mem_of_ensureCompleteDiff hcomplete).1 p.1 hfile
    have hpath := (completeFile_path hone).1
    rcases hplaced done hdone with ⟨item, hitem, hof⟩ | ⟨omitted, hmem, homitted⟩
    · exact .inl ⟨item, hitem, hof.1.trans hpath,
        shows_of_sound (hsupplied p hp) hone hof hsound⟩
    · exact .inr ⟨omitted, hmem, homitted.trans hpath⟩
  have hshown : ∀ p ∈ changes, Sound options fetcher snapshot p.1 p.2 →
      packed.coversAllChangedFiles = true → ShownIn packed p.1 p.2 := by
    intro p hp hsound hfull
    rcases hreported p hp hsound with hshown | ⟨omitted, hmem, _⟩
    · exact hshown
    · rw [hcovers.mp hfull] at hmem
      cases hmem
  constructor
  · exact fun p hp hsound => ⟨hreported p hp hsound, hshown p hp hsound⟩
  · intro hplain hfull
    constructor
    · intro hall p hp
      exact sound_of_shown hfiles hsupplied hcomplete hpack hplain hp (hall p hp)
    · intro hall p hp
      exact hshown p hp (hall p hp) hfull

end Coverage

/-! ## A changed line with and without its patch -/

section Example

/-- The tables of a text in ASCII, for which they are not read. -/
def asciiTables : UnicodeTables where
  isSpace := fun _ => false
  decimal := fun _ => none

/-- The digest of one text. -/
def digestOf (digest : String) (h : digest.length = 64) : HexDigest where
  digest := fun _ => digest
  length_eq := fun _ => h

/-- A clone in which every file holds the line `x = 2`. -/
def cloneOfLine : BoundedCloneFetcher where
  sizeLimitBytes := 104857600
  environment := {
    staysInside := fun _ => true
    checkout := fun _ _ => .ok {
      isFile := fun _ => true
      size := fun _ => 6
      readText := fun _ => .ofString "x = 2\n" }
    staysInsideTree := fun _ _ => true }

def removedLine : DiffLine where
  mark := .removed
  text := .ofString "x = 1"
  crlf := false
  atEnd := false
  text_line := by decide +kernel
  text_end := by decide +kernel

def addedLine : DiffLine where
  mark := .added
  text := .ofString "x = 2"
  crlf := false
  atEnd := false
  text_line := by decide +kernel
  text_end := by decide +kernel

/-- The line `x = 1` becomes `x = 2`. -/
def lineChange : Change :=
  [{ oldStart := 1
     oldCount := none
     newStart := 1
     newCount := none
     heading := ⟨[]⟩
     lines := [removedLine, addedLine]
     heading_line := by decide }]

/-- The changed file, with the patch GitHub sends or does not. -/
def changedFile (patch : Option PyStr) : PullRequestFile where
  path := "a.py"
  status := .modified
  patch := patch
  previousPath := none
  truncated := false
  binary := false
  omissionReason := none
  path_ne := by decide

/-- The snapshot of the changed file. -/
def changedSnapshot (patch : Option PyStr) : PullRequestSnapshot where
  repoOwner := "octocat"
  repoName := "notebook"
  number := 35
  baseSha := "7d0c1a2"
  headSha := "e94b3f6"
  title := .ofString "Set x"
  body := ⟨[]⟩
  files := [changedFile patch]
  identity := some {
    installationId := 3501
    repositoryId := 3502
    owner := "octocat"
    name := "notebook"
    installationId_pos := by decide
    repositoryId_pos := by decide
    owner_ne := by decide
    name_ne := by decide }
  draft := false
  repoOwner_ne := by decide
  repoName_ne := by decide
  number_pos := by decide
  baseSha_ne := by decide
  headSha_ne := by decide

/-- `_count_tokens`. -/
def tokenCount (text : PyStr) : Int :=
  max 1 (text.points.length / 4 : Nat)

/-- The digest of `NEW a.py`, `1| x = 2`, `OLD a.py`, `x = 1`. -/
def shownDigest : HexDigest :=
  digestOf "1c7024646f94ccda276b05ac6d65c11bd164e634528bc3eef1e26ae57ff69978" (by decide +kernel)

/-- The digest of the empty text. -/
def emptyDigest : HexDigest :=
  digestOf "e3b0c44298fc1c149afbf4c8996fb92427ae41e4649b934ca495991b7852b855" (by decide +kernel)

/-- `pack_diff` of the changed file with a patch. -/
def packedChange (patch : PyStr) (hexdigest : HexDigest) : Except PyException PackedDiff :=
  packDiff asciiTables hexdigest tokenCount noOptions (changedSnapshot (some patch)) ⟨1000⟩

/-- Full coverage is reported. -/
def reportsFull : Except PyException PackedDiff → Bool
  | .ok packed => packed.coversAllChangedFiles
  | .error _ => false

/-- No item has any content. -/
def showsNothing : Except PyException PackedDiff → Bool
  | .ok packed => packed.items.all (fun item => item.content.points.isEmpty)
  | .error _ => false

/-- A packed diff of which full coverage is reported. -/
theorem packed_of_reportsFull
    {result : Except PyException PackedDiff}
    (h : reportsFull result = true) :
    ∃ packed, result = .ok packed ∧ packed.coversAllChangedFiles = true := by
  cases result with
  | error e => cases h
  | ok packed => exact ⟨packed, rfl, h⟩

theorem full_coverage_sound_line :
    ∃ packed,
      packedChange (patchText lineChange) shownDigest = .ok packed ∧
        packed.coversAllChangedFiles = true ∧
        ShownIn packed (changedFile (some (patchText lineChange))) lineChange := by
  obtain ⟨packed, hpack, hfull⟩ := packed_of_reportsFull
    (show reportsFull (packedChange (patchText lineChange) shownDigest) = true by decide +kernel)
  have hfiles : (changedSnapshot (some (patchText lineChange))).files =
      [(changedFile (some (patchText lineChange)), lineChange)].map Prod.fst := rfl
  have hsupplied : ∀ p ∈ [(changedFile (some (patchText lineChange)), lineChange)],
      Supplied p.1 p.2 := by
    intro p hp _
    rw [List.mem_singleton] at hp
    exact hp ▸ rfl
  have hcomplete : ensureCompleteDiff (changedSnapshot (some (patchText lineChange)))
      cloneOfLine.recoverPatch = .ok (changedSnapshot (some (patchText lineChange))) := rfl
  have hsound : Sound noOptions cloneOfLine (changedSnapshot (some (patchText lineChange)))
      (changedFile (some (patchText lineChange))) lineChange := by
    refine .inr ⟨fun _ hunk hhunk => ?_, fun text htext => ?_⟩
    · rw [lineChange, List.mem_singleton] at hhunk
      subst hhunk
      refine ⟨fun c hc => absurd hc List.not_mem_nil, fun line hline => ?_⟩
      rcases List.mem_pair.mp hline with rfl | rfl
      · exact unbroken_ofString (by decide +kernel)
      · exact unbroken_ofString (by decide +kernel)
    · have hpatch : hasText (changedFile (some (patchText lineChange))).patch = true := by
        decide +kernel
      exact absurd htext.1 (by simp [hpatch])
  have hcoverage := full_coverage_sound hfiles hsupplied hcomplete hpack
  exact ⟨packed, hpack, hfull,
    (hcoverage.1 _ (List.mem_singleton_self _) hsound).2 hfull⟩

/-- Without the patch the file is included, full coverage is reported and nothing is shown. -/
theorem full_coverage_of_unshown_change :
    ensureCompleteDiff (changedSnapshot none) cloneOfLine.recoverPatch =
        .ok (changedSnapshot (some (.ofString "x = 2\n"))) ∧
      ∃ packed,
        packedChange (.ofString "x = 2\n") emptyDigest = .ok packed ∧
          packed.coversAllChangedFiles = true ∧
          Supplied (changedFile none) lineChange ∧
          ¬ ShownIn packed (changedFile none) lineChange ∧
          ¬ OmittedIn packed (changedFile none) := by
  have hnothing : showsNothing (packedChange (.ofString "x = 2\n") emptyDigest) = true := by decide +kernel
  obtain ⟨packed, hpack, hfull⟩ := packed_of_reportsFull
    (show reportsFull (packedChange (.ofString "x = 2\n") emptyDigest) = true by decide +kernel)
  refine ⟨rfl, packed, hpack, hfull, ?_, ?_, ?_⟩
  · rintro ⟨⟩
  · rintro ⟨item, hitem, _, hshows⟩
    rw [hpack] at hnothing
    have hempty := List.all_eq_true.mp hnothing item hitem
    have hcontent : item.content = ⟨[]⟩ :=
      congrArg PyStr.mk (List.isEmpty_iff.mp hempty)
    have hadded : lineChange.addedLines ≠ [] := by decide +kernel
    rw [hcontent] at hshows
    exact hadded (lines_of_shows_empty (fun h => absurd h hadded) hshows).1
  · rintro ⟨omitted, homitted, _⟩
    rw [(packDiff_accounts hpack).2.2.mp hfull] at homitted
    cases homitted

end Example

end Reviewer
end PrReviewer
