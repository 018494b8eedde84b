import Mathlib.Tactic
import PrReviewer.LocalStore.RepoConfig

/-!
# Frames of the repository configuration

What the store reads after any operations: the policy and the choice last set for a repository,
and its prompts in the order they were added.  Only operations that returned count.

The file is told by the operations that returned: the object of a repository is the dump of its
policy with its choice behind it, and the versions of its prompts are numbered by their places.
-/

namespace PrReviewer
namespace LocalStore

open Lib

inductive RepoConfigOp where
  | set (id : RepositoryId) (policy : ReviewPolicy)
  | setModelChoice (id : RepositoryId) (choice : RepoModelChoice)
  | addRepositoryPrompt (id : RepositoryId) (content : PyStr)
  | markRepositoryPromptUsed (id : RepositoryId) (version : PyStr)
deriving DecidableEq

section Frames

variable (tables : UnicodeTables)

/-- An operation, with the version it returns. -/
def RepoConfigOp.program : RepoConfigOp → ConfigProgram (Option RepositoryPromptVersion)
  | .set id policy => do
      RepoConfigStore.set id policy
      return none
  | .setModelChoice id choice => do
      RepoConfigStore.setModelChoice id choice
      return none
  | .addRepositoryPrompt id content => do
      let added ← RepoConfigStore.addRepositoryPrompt tables id content
      return some added
  | .markRepositoryPromptUsed id version => do
      RepoConfigStore.markRepositoryPromptUsed id version
      return none

/-- The file, and the operations that returned. -/
abbrev ConfigRun := Option ConfigPayload × List RepoConfigOp

def stepConfig (s : ConfigRun) (op : RepoConfigOp) : ConfigRun :=
  match (op.program tables).run answerConfig s.1 with
  | (.ok _, file) => (file, s.2 ++ [op])
  | (.error _, file) => (file, s.2)

/-- A run on a store without a file. -/
def configAfter (ops : List RepoConfigOp) : ConfigRun :=
  ops.foldl (stepConfig tables) (none, [])

/-- What a program reads from the file of a run. -/
def reads {α : Type} (program : ConfigProgram α) (s : ConfigRun) : Except RepoConfigError α :=
  (program.run answerConfig s.1).1

/-! ## Histories -/

/-- The policy an operation sets for a repository. -/
def policySet (id : RepositoryId) : RepoConfigOp → Option ReviewPolicy
  | .set other policy => if other = id then some policy else none
  | _ => none

/-- The choice an operation sets for a repository. -/
def choiceSet (id : RepositoryId) : RepoConfigOp → Option RepoModelChoice
  | .setModelChoice other choice => if other = id then some choice else none
  | _ => none

/-- The content of the prompt an operation adds to a repository. -/
def promptAdded (id : RepositoryId) : RepoConfigOp → Option PyStr
  | .addRepositoryPrompt other content => if other = id then some (content.strip tables) else none
  | _ => none

def lastPolicy (returned : List RepoConfigOp) (id : RepositoryId) : Option ReviewPolicy :=
  (returned.filterMap (policySet id)).getLast?

def lastChoice (returned : List RepoConfigOp) (id : RepositoryId) : Option RepoModelChoice :=
  (returned.filterMap (choiceSet id)).getLast?

def promptContents (returned : List RepoConfigOp) (id : RepositoryId) : List PyStr :=
  returned.filterMap (promptAdded tables id)

/-! ## The object of a repository -/

/-- The items of a choice. -/
def choiceItems : Option RepoModelChoice → RepoEntry
  | none => []
  | some choice => [("provider_id", .str choice.providerId), ("model_id", .str choice.modelId)]

/-- The object that holds a policy and a choice; there is none where neither was set. -/
def entryOf : Option ReviewPolicy → Option RepoModelChoice → Option RepoEntry
  | none, none => none
  | some policy, choice => some (policy.modelDump ++ choiceItems choice)
  | none, some choice => some (defaultReviewPolicy.modelDump ++ choiceItems (some choice))

theorem split_dump
    (policy : ReviewPolicy) (choice : Option RepoModelChoice) :
    splitRepoEntry (policy.modelDump ++ choiceItems choice) =
      (policy.modelDump, choiceItems choice) := by
  cases choice with
  | none => rfl
  | some choice => rfl

theorem merge_dump
    (policy : ReviewPolicy) (choice : Option RepoModelChoice) :
    dictMerge policy.modelDump (choiceItems choice) =
      policy.modelDump ++ choiceItems choice := by
  cases choice with
  | none => rfl
  | some choice => rfl

theorem split_entryOf
    (policy : Option ReviewPolicy) (choice : Option RepoModelChoice) :
    splitRepoEntry ((entryOf policy choice).getD []) =
      (if policy = none ∧ choice = none then [] else (policy.getD defaultReviewPolicy).modelDump,
        choiceItems choice) := by
  cases policy with
  | none =>
      cases choice with
      | none => rfl
      | some choice => simpa [entryOf] using split_dump defaultReviewPolicy (some choice)
  | some policy => simpa [entryOf] using split_dump policy choice

/-! ## The prompts of a repository -/

/-- The versions of the prompts, numbered by their places. -/
def versionsOf (returned : List RepoConfigOp) (id : RepositoryId) :
    List (PyStr × PromptEntry) :=
  (promptContents tables returned id).mapIdx (fun i content =>
    (decimal (i + 1),
      ⟨content, decide (.markRepositoryPromptUsed id (decimal (i + 1)) ∈ returned)⟩))

/-- What is listed of the versions. -/
def promptItems (returned : List RepoConfigOp) (id : RepositoryId) :
    List RepositoryPromptVersion :=
  (promptContents tables returned id).mapIdx (fun i content =>
    ⟨decimal (i + 1), content,
      decide (.markRepositoryPromptUsed id (decimal (i + 1)) ∈ returned)⟩)

/-- The object of the prompts; the last one is active. -/
def promptsOf (returned : List RepoConfigOp) (id : RepositoryId) : Option PromptsEntry :=
  if promptContents tables returned id = [] then
    none
  else
    some ⟨versionsOf tables returned id,
      some (decimal (promptContents tables returned id).length)⟩

/-- The file is told by the operations that returned. -/
structure Told (returned : List RepoConfigOp) (payload : ConfigPayload) : Prop where
  entries : ∀ id, (payload.repositories.getD []).lookup (repositoryKey id) =
    entryOf (lastPolicy returned id) (lastChoice returned id)
  prompts : ∀ id, (payload.repositoryPrompts.getD []).lookup (repositoryKey id) =
    promptsOf tables returned id
  known : ∀ id choice, .setModelChoice id choice ∈ returned →
    isKnownProviderModel choice.providerId choice.modelId = true
  marks : ∀ id version, .markRepositoryPromptUsed id version ∈ returned →
    ∃ i < (promptContents tables returned id).length, version = decimal (i + 1)
  few : ∀ id, (promptContents tables returned id).length < 10 ^ maxStrDigits

/-- The operations that return. -/
def Accepted (returned : List RepoConfigOp) : RepoConfigOp → Prop
  | .set _ _ => True
  | .setModelChoice _ choice => isKnownProviderModel choice.providerId choice.modelId = true
  | .addRepositoryPrompt id content =>
      content.strip tables ≠ ⟨[]⟩ ∧
        (promptContents tables returned id).length + 1 < 10 ^ maxStrDigits
  | .markRepositoryPromptUsed id version =>
      ∃ i < (promptContents tables returned id).length, version = decimal (i + 1)

/-- What one operation does to a file that is told. -/
structure StepSpec (s : ConfigRun) (op : RepoConfigOp) : Prop where
  told : Told tables (stepConfig tables s op).2 (payloadOf (stepConfig tables s op).1)
  returns : (reads (op.program tables) s).isOk = true ↔ Accepted tables s.2 op
  raises : (reads (op.program tables) s).isOk = false → stepConfig tables s op = s

/-! ## One more operation -/

section Append

variable {tables}
variable {returned : List RepoConfigOp} {payload payload' : ConfigPayload} {op : RepoConfigOp}

theorem lastPolicy_append
    (id : RepositoryId) :
    lastPolicy (returned ++ [op]) id = (policySet id op).or (lastPolicy returned id) := by
  rw [lastPolicy, List.filterMap_append, List.getLast?_append]
  cases hset : policySet id op with
  | none => simp [hset, lastPolicy]
  | some policy => simp [hset]

theorem lastChoice_append
    (id : RepositoryId) :
    lastChoice (returned ++ [op]) id = (choiceSet id op).or (lastChoice returned id) := by
  rw [lastChoice, List.filterMap_append, List.getLast?_append]
  cases hset : choiceSet id op with
  | none => simp [hset, lastChoice]
  | some choice => simp [hset]

theorem promptContents_append
    (id : RepositoryId) :
    promptContents tables (returned ++ [op]) id =
      promptContents tables returned id ++ (promptAdded tables id op).toList := by
  rw [promptContents, List.filterMap_append]
  cases hadded : promptAdded tables id op with
  | none => simp [hadded, promptContents]
  | some content => simp [hadded, promptContents]

theorem lastPolicy_append_none
    {id : RepositoryId} (hset : policySet id op = none) :
    lastPolicy (returned ++ [op]) id = lastPolicy returned id := by
  rw [lastPolicy_append, hset, Option.none_or]

theorem lastChoice_append_none
    {id : RepositoryId} (hset : choiceSet id op = none) :
    lastChoice (returned ++ [op]) id = lastChoice returned id := by
  rw [lastChoice_append, hset, Option.none_or]

theorem promptContents_append_none
    {id : RepositoryId} (hadded : promptAdded tables id op = none) :
    promptContents tables (returned ++ [op]) id = promptContents tables returned id := by
  rw [promptContents_append, hadded, Option.toList_none, List.append_nil]

/-- Operations other than a mark leave the marks. -/
theorem mem_marks_append
    {id : RepositoryId} {version : PyStr}
    (hmark : op ≠ .markRepositoryPromptUsed id version) :
    RepoConfigOp.markRepositoryPromptUsed id version ∈ returned ++ [op] ↔
      .markRepositoryPromptUsed id version ∈ returned := by
  rw [List.mem_append, List.mem_singleton]
  exact or_iff_left (fun heq => hmark heq.symm)

/-- The prompts of a repository that an operation is not about. -/
theorem promptsOf_append
    {id : RepositoryId}
    (hadded : promptAdded tables id op = none)
    (hmark : ∀ version, op ≠ .markRepositoryPromptUsed id version) :
    promptsOf tables (returned ++ [op]) id = promptsOf tables returned id := by
  rw [promptsOf, promptsOf, versionsOf, versionsOf, promptContents_append_none hadded]
  simp only [mem_marks_append (hmark _)]

/-- The numbers of the prompts of a repository stay those of the prompts. -/
theorem Told.append
    (h : Told tables returned payload)
    (hentries : ∀ id, (payload'.repositories.getD []).lookup (repositoryKey id) =
      entryOf (lastPolicy (returned ++ [op]) id) (lastChoice (returned ++ [op]) id))
    (hprompts : ∀ id, (payload'.repositoryPrompts.getD []).lookup (repositoryKey id) =
      promptsOf tables (returned ++ [op]) id)
    (hknown : ∀ id choice, op = .setModelChoice id choice →
      isKnownProviderModel choice.providerId choice.modelId = true)
    (hmarks : ∀ id version, op = .markRepositoryPromptUsed id version →
      ∃ i < (promptContents tables returned id).length, version = decimal (i + 1))
    (hfew : ∀ id, (promptContents tables (returned ++ [op]) id).length < 10 ^ maxStrDigits) :
    Told tables (returned ++ [op]) payload' where
  entries := hentries
  prompts := hprompts
  known := by
    intro id choice hmem
    rcases List.mem_append.mp hmem with hmem | hmem
    · exact h.known id choice hmem
    · exact hknown id choice (List.mem_singleton.mp hmem).symm
  marks := by
    intro id version hmem
    have hlength : (promptContents tables returned id).length ≤
        (promptContents tables (returned ++ [op]) id).length := by
      rw [promptContents_append, List.length_append]
      exact Nat.le_add_right ..
    have hold : ∃ i < (promptContents tables returned id).length, version = decimal (i + 1) := by
      rcases List.mem_append.mp hmem with hmem | hmem
      · exact h.marks id version hmem
      · exact hmarks id version (List.mem_singleton.mp hmem).symm
    obtain ⟨i, hi, hversion⟩ := hold
    exact ⟨i, hi.trans_le hlength, hversion⟩
  few := hfew

/-- A change of one repository's object. -/
theorem lookup_repository
    {β : Type} (items : List (PyStr × β)) (id other : RepositoryId) (value : β) :
    (dictSet items (repositoryKey id) value).lookup (repositoryKey other) =
      if other = id then some value else items.lookup (repositoryKey other) := by
  rw [lookup_dictSet]
  simp only [repositoryKey_injective.eq_iff]

theorem Told.set
    (h : Told tables returned payload) (id : RepositoryId) (policy : ReviewPolicy) :
    Told tables (returned ++ [.set id policy])
      { payload with
        repositories := some (dictSet (payload.repositories.getD []) (repositoryKey id)
          (dictMerge policy.modelDump (splitRepoEntry
            (((payload.repositories.getD []).lookup (repositoryKey id)).getD [])).2)) } := by
  refine h.append (fun other => ?_) (fun other => ?_) (fun _ _ heq => nomatch heq)
    (fun _ _ heq => nomatch heq) (fun other => ?_)
  · rw [h.entries, split_entryOf, merge_dump, Option.getD_some, lookup_repository,
      lastPolicy_append, lastChoice_append]
    by_cases hother : other = id
    · subst hother
      simp [policySet, choiceSet, entryOf]
    · rw [if_neg hother, h.entries]
      simp [policySet, choiceSet, Ne.symm hother]
  · rw [promptsOf_append rfl (by rintro version ⟨⟩)]
    exact h.prompts other
  · rw [promptContents_append_none rfl]
    exact h.few other

theorem Told.setModelChoice
    (h : Told tables returned payload) (id : RepositoryId) {choice : RepoModelChoice}
    (hknown : isKnownProviderModel choice.providerId choice.modelId = true) :
    Told tables (returned ++ [.setModelChoice id choice])
      { payload with
        repositories := some (dictSet (payload.repositories.getD []) (repositoryKey id)
          (dictMerge
            (if (splitRepoEntry (((payload.repositories.getD []).lookup
                (repositoryKey id)).getD [])).1 = [] then defaultReviewPolicy.modelDump
              else (splitRepoEntry (((payload.repositories.getD []).lookup
                (repositoryKey id)).getD [])).1)
            (choiceItems (some choice)))) } := by
  refine h.append (fun other => ?_) (fun other => ?_) ?_
    (fun _ _ heq => nomatch heq) (fun other => ?_)
  · have hpolicy :
        (if (splitRepoEntry (((payload.repositories.getD []).lookup
            (repositoryKey id)).getD [])).1 = [] then defaultReviewPolicy.modelDump
          else (splitRepoEntry (((payload.repositories.getD []).lookup
            (repositoryKey id)).getD [])).1) =
          ((lastPolicy returned id).getD defaultReviewPolicy).modelDump := by
      rw [h.entries, split_entryOf]
      cases hlast : lastPolicy returned id with
      | none =>
          cases lastChoice returned id with
          | none => rfl
          | some last => rfl
      | some policy => rfl
    rw [hpolicy, merge_dump, Option.getD_some, lookup_repository, lastPolicy_append,
      lastChoice_append]
    by_cases hother : other = id
    · subst hother
      have hpolicyNone : policySet other (.setModelChoice other choice) = none := rfl
      have hchoice : choiceSet other (.setModelChoice other choice) = some choice := if_pos rfl
      rw [if_pos rfl, hpolicyNone, hchoice, Option.none_or, Option.some_or]
      cases lastPolicy returned other with
      | none => rfl
      | some policy => rfl
    · rw [if_neg hother, h.entries]
      simp [policySet, choiceSet, Ne.symm hother]
  · rw [promptsOf_append rfl (by rintro version ⟨⟩)]
    exact h.prompts other
  · rintro _ _ ⟨⟩
    exact hknown
  · rw [promptContents_append_none rfl]
    exact h.few other

/-- The versions are the numbers of the places. -/
theorem keys_versionsOf
    (tables : UnicodeTables) (returned : List RepoConfigOp) (id : RepositoryId) :
    (versionsOf tables returned id).map Prod.fst =
      (List.range (promptContents tables returned id).length).map (fun i => decimal (i + 1)) := by
  refine List.ext_getElem (by simp [versionsOf]) (fun i h h' => ?_)
  simp [versionsOf]

theorem decimal_succ_injective :
    Function.Injective (fun i : Nat => decimal (i + 1)) :=
  fun _ _ h => Nat.succ.inj (decimal_injective h)

theorem nodup_versionsOf
    (tables : UnicodeTables) (returned : List RepoConfigOp) (id : RepositoryId) :
    ((versionsOf tables returned id).map Prod.fst).Nodup := by
  rw [keys_versionsOf]
  exact List.nodup_range.map decimal_succ_injective

/-- A version is known where it is the number of a place. -/
theorem mem_keys_versionsOf
    {id : RepositoryId} {version : PyStr} :
    version ∈ (versionsOf tables returned id).map Prod.fst ↔
      ∃ i < (promptContents tables returned id).length, version = decimal (i + 1) := by
  rw [keys_versionsOf, List.mem_map]
  simp only [List.mem_range, eq_comm]

/-- The versions of the file, where there are any. -/
theorem Told.versions
    (h : Told tables returned payload) (id : RepositoryId) :
    (((payload.repositoryPrompts.getD []).lookup (repositoryKey id)).getD ⟨[], none⟩).versions =
      versionsOf tables returned id := by
  rw [h.prompts, promptsOf]
  split
  · next hempty => rw [versionsOf, hempty]; rfl
  · rfl

/-- A prompt that is added goes to the end, unlocked. -/
theorem Told.versionsOf_add
    (h : Told tables returned payload) (id : RepositoryId) (content : PyStr) :
    versionsOf tables (returned ++ [.addRepositoryPrompt id content]) id =
      versionsOf tables returned id ++
        [(decimal ((promptContents tables returned id).length + 1),
          ⟨content.strip tables, false⟩)] := by
  have hadded : promptAdded tables id (.addRepositoryPrompt id content) =
      some (content.strip tables) := if_pos rfl
  have hunmarked : .markRepositoryPromptUsed id
      (decimal ((promptContents tables returned id).length + 1)) ∉ returned := by
    intro hmem
    obtain ⟨i, hi, heq⟩ := h.marks id _ hmem
    have hsame := decimal_succ_injective heq
    omega
  have hmarks : ∀ version, RepoConfigOp.markRepositoryPromptUsed id version ∈
      returned ++ [.addRepositoryPrompt id content] ↔
        .markRepositoryPromptUsed id version ∈ returned :=
    fun version => mem_marks_append nofun
  rw [versionsOf, promptContents_append, hadded, Option.toList_some, List.mapIdx_concat]
  simp only [hmarks, hunmarked, decide_false]
  rfl

theorem Told.addRepositoryPrompt
    (h : Told tables returned payload) (id : RepositoryId) (content : PyStr)
    (hfew : (promptContents tables returned id).length + 1 < 10 ^ maxStrDigits) :
    Told tables (returned ++ [.addRepositoryPrompt id content])
      { payload with
        repositoryPrompts := some (dictSet (payload.repositoryPrompts.getD []) (repositoryKey id)
          ⟨dictSet (versionsOf tables returned id)
              (decimal ((promptContents tables returned id).length + 1))
              ⟨content.strip tables, false⟩,
            some (decimal ((promptContents tables returned id).length + 1))⟩) } := by
  have hadded : promptAdded tables id (.addRepositoryPrompt id content) =
      some (content.strip tables) := if_pos rfl
  have hother : ∀ other, other ≠ id →
      promptAdded tables other (.addRepositoryPrompt id content) = none :=
    fun other hne => if_neg (fun heq => hne heq.symm)
  have hcontents : promptContents tables (returned ++ [.addRepositoryPrompt id content]) id =
      promptContents tables returned id ++ [content.strip tables] := by
    rw [promptContents_append, hadded, Option.toList_some]
  have hnew : decimal ((promptContents tables returned id).length + 1) ∉
      (versionsOf tables returned id).map Prod.fst := by
    rw [mem_keys_versionsOf]
    rintro ⟨i, hi, heq⟩
    have hsame := decimal_succ_injective heq
    omega
  refine h.append (fun other => ?_) (fun other => ?_) (by rintro _ _ ⟨⟩) (by rintro _ _ ⟨⟩)
    (fun other => ?_)
  · rw [lastPolicy_append_none rfl, lastChoice_append_none rfl]
    exact h.entries other
  · rw [Option.getD_some, lookup_repository]
    by_cases hsame : other = id
    · subst hsame
      rw [if_pos rfl, promptsOf, hcontents, if_neg (by simp), dictSet_of_not_mem hnew,
        h.versionsOf_add, List.length_append, List.length_singleton]
    · rw [if_neg hsame, h.prompts,
        promptsOf_append (hother other hsame) (by rintro version ⟨⟩)]
  · by_cases hsame : other = id
    · subst hsame
      rw [hcontents, List.length_append, List.length_singleton]
      exact hfew
    · rw [promptContents_append_none (hother other hsame)]
      exact h.few other

/-- A mark locks its version where it stands. -/
theorem versionsOf_mark
    {id : RepositoryId} {version : PyStr} {raw : PromptEntry}
    (hraw : (versionsOf tables returned id).lookup version = some raw) :
    versionsOf tables (returned ++ [.markRepositoryPromptUsed id version]) id =
      dictSet (versionsOf tables returned id) version { raw with locked := true } := by
  have hnodup := nodup_versionsOf tables returned id
  have hmem := (lookup_eq_some_iff_mem hnodup).mp hraw
  rw [dictSet_of_mem hnodup (List.mem_map_of_mem hmem), versionsOf,
    promptContents_append_none rfl]
  refine List.ext_getElem (by simp [versionsOf]) (fun i hi hi' => ?_)
  rw [List.getElem_map, List.getElem_mapIdx]
  obtain ⟨k, hk, hat⟩ := List.getElem_of_mem hmem
  simp only [versionsOf, List.getElem_mapIdx] at hat ⊢
  by_cases hversion : decimal (i + 1) = version
  · have hsame : k = i := decimal_succ_injective ((congrArg Prod.fst hat).trans hversion.symm)
    subst hsame
    have hlocked : RepoConfigOp.markRepositoryPromptUsed id (decimal (k + 1)) ∈
        returned ++ [.markRepositoryPromptUsed id version] := by
      rw [hversion]
      exact List.mem_append_right _ (List.mem_singleton_self _)
    have hcontent := congrArg PromptEntry.content (congrArg Prod.snd hat)
    rw [if_pos hversion]
    refine Prod.ext hversion ?_
    simp only [hlocked, decide_true]
    exact congrArg (fun content => PromptEntry.mk content true) hcontent
  · rw [if_neg hversion]
    have hmark : RepoConfigOp.markRepositoryPromptUsed id version ≠
        .markRepositoryPromptUsed id (decimal (i + 1)) := by
      intro heq
      cases heq
      exact hversion rfl
    simp only [mem_marks_append hmark]

theorem Told.markRepositoryPromptUsed
    (h : Told tables returned payload) {id : RepositoryId} {version : PyStr} {raw : PromptEntry}
    (hraw : (versionsOf tables returned id).lookup version = some raw) :
    Told tables (returned ++ [.markRepositoryPromptUsed id version])
      { payload with
        repositoryPrompts := some (dictSet (payload.repositoryPrompts.getD []) (repositoryKey id)
          { ((payload.repositoryPrompts.getD []).lookup (repositoryKey id)).getD ⟨[], none⟩ with
            versions := dictSet (versionsOf tables returned id) version
              { raw with locked := true } }) } := by
  have hcontents : ∀ other,
      promptContents tables (returned ++ [.markRepositoryPromptUsed id version]) other =
        promptContents tables returned other :=
    fun _ => promptContents_append_none rfl
  have hmem : version ∈ (versionsOf tables returned id).map Prod.fst :=
    isSome_lookup_iff.mp (by rw [hraw]; rfl)
  refine h.append (fun other => ?_) (fun other => ?_) (by rintro _ _ ⟨⟩) ?_ (fun other => ?_)
  · rw [lastPolicy_append_none rfl, lastChoice_append_none rfl]
    exact h.entries other
  · rw [Option.getD_some, lookup_repository]
    by_cases hsame : other = id
    · subst hsame
      have hne : promptContents tables returned other ≠ [] := by
        intro hempty
        rw [mem_keys_versionsOf, hempty] at hmem
        obtain ⟨i, hi, _⟩ := hmem
        cases hi
      rw [if_pos rfl, h.prompts, promptsOf, if_neg hne, promptsOf, hcontents, if_neg hne,
        versionsOf_mark hraw]
      rfl
    · rw [if_neg hsame, h.prompts, promptsOf_append rfl (by
        rintro _ ⟨⟩
        exact hsame rfl)]
  · rintro _ _ ⟨⟩
    exact mem_keys_versionsOf.mp hmem
  · rw [hcontents]
    exact h.few other

/-! ## Reading the versions -/

/-- The numbered versions are in the order of their numbers. -/
theorem sortedVersions_versionsOf
    {id : RepositoryId}
    (hfew : (promptContents tables returned id).length < 10 ^ maxStrDigits) :
    sortedVersions tables (versionsOf tables returned id) =
      .ok (versionsOf tables returned id) := by
  have hnumber : ∀ i (hi : i < (versionsOf tables returned id).length),
      intOfText tables (versionsOf tables returned id)[i].1 = some ((i + 1 : Nat) : Int) := by
    intro i hi
    have hlength : i < (promptContents tables returned id).length := by
      simpa [versionsOf] using hi
    simp only [versionsOf, List.getElem_mapIdx]
    rw [intOfText_decimal_eq, if_pos (by omega)]
  have hkeys : ∀ item ∈ versionsOf tables returned id,
      versionNumber tables item.1 = .ok ((intOfText tables item.1).getD 0) := by
    intro item hitem
    obtain ⟨i, hi, rfl⟩ := List.getElem_of_mem hitem
    rw [versionNumber, hnumber i hi]
    rfl
  rw [sortedVersions, sortByKey_eq hkeys]
  refine congrArg Except.ok (sortOn_eq_self (List.pairwise_iff_getElem.mpr ?_))
  intro i j hi hj hij
  rw [hnumber i hi, hnumber j hj]
  simp only [Option.getD_some]
  omega

/-- Distinct versions are registered one after the other. -/
theorem register_versions
    (name : PyStr) {versions : List (PyStr × PromptEntry)} (registry : PromptRegistry)
    (hnodup : (versions.map Prod.fst).Nodup)
    (hfresh : ∀ version ∈ versions.map Prod.fst, (name, version) ∉ registry.map Prod.fst) :
    versions.foldlM (fun (registry : PromptRegistry) item =>
        registry.register name item.1 item.2.content) registry =
      .ok (registry ++ versions.map (fun item => ((name, item.1), item.2.content))) := by
  induction versions generalizing registry with
  | nil => simp [pure, Except.pure]
  | cons item rest ih =>
      rw [List.map_cons, List.nodup_cons] at hnodup
      rw [List.map_cons, List.forall_mem_cons] at hfresh
      have hfirst : registry.register name item.1 item.2.content =
          .ok (registry ++ [((name, item.1), item.2.content)]) := by
        rw [PromptRegistry.register, if_neg hfresh.1, dictSet_of_not_mem hfresh.1]
      have hnext : ∀ version ∈ rest.map Prod.fst,
          (name, version) ∉
            (registry ++ [((name, item.1), item.2.content)]).map Prod.fst := by
        intro version hversion hmem
        rw [List.map_append, List.mem_append] at hmem
        rcases hmem with hmem | hmem
        · exact hfresh.2 version hversion hmem
        · have heq := List.mem_singleton.mp hmem
          exact hnodup.1 ((Prod.mk.inj heq).2 ▸ hversion)
      rw [List.foldlM_cons, hfirst]
      change rest.foldlM (fun (registry : PromptRegistry) item =>
        registry.register name item.1 item.2.content) _ = _
      rw [ih _ hnodup.2 hnext, List.map_cons, List.append_assoc, List.singleton_append]

/-! ## Runs of the operations -/

section Runs

variable {file : Option ConfigPayload}

theorem run_readPayload
    {α : Type} (next : ConfigPayload → ConfigProgram α) :
    (readPayload.bind next).run answerConfig file =
      (next (payloadOf file)).run answerConfig file := by
  rfl

theorem run_repoEntry
    {α : Type} (id : RepositoryId) (next : RepoEntry → ConfigProgram α) :
    ((RepoConfigStore.repoEntry id).bind next).run answerConfig file =
      (next ((((payloadOf file).repositories.getD []).lookup (repositoryKey id)).getD [])).run
        answerConfig file := by
  rfl

theorem run_repositoryPromptsEntry
    {α : Type} (id : RepositoryId) (next : PromptsEntry → ConfigProgram α) :
    ((RepoConfigStore.repositoryPromptsEntry id).bind next).run answerConfig file =
      (next ((((payloadOf file).repositoryPrompts.getD []).lookup (repositoryKey id)).getD
        ⟨[], none⟩)).run answerConfig file := by
  rfl

theorem run_ofExcept
    {α β : Type} (value : Except RepoConfigError α) (next : α → ConfigProgram β) :
    ((Program.ofExcept value).bind next).run answerConfig file =
      match value with
      | .ok a => (next a).run answerConfig file
      | .error error => (.error error, file) := by
  cases value with
  | ok a => rfl
  | error error => rfl

theorem StepSpec.accepted
    (haccepted : Accepted tables returned op) (h : Told tables (returned ++ [op]) payload)
    (hrun : ∃ value, (op.program tables).run answerConfig file = (.ok value, some payload)) :
    StepSpec tables (file, returned) op := by
  obtain ⟨value, hrun⟩ := hrun
  have hstep : stepConfig tables (file, returned) op = (some payload, returned ++ [op]) := by
    rw [stepConfig, hrun]
  have hreads : reads (op.program tables) (file, returned) = .ok value := by
    rw [reads, hrun]
  refine ⟨?_, ?_, ?_⟩
  · rw [hstep]
    exact h
  · rw [hreads]
    exact iff_of_true rfl haccepted
  · rw [hreads]
    intro hraised
    cases hraised

theorem StepSpec.raised
    (hrejected : ¬ Accepted tables returned op) (h : Told tables returned (payloadOf file))
    (hrun : ∃ error, (op.program tables).run answerConfig file = (.error error, file)) :
    StepSpec tables (file, returned) op := by
  obtain ⟨error, hrun⟩ := hrun
  have hstep : stepConfig tables (file, returned) op = (file, returned) := by
    rw [stepConfig, hrun]
  have hreads : reads (op.program tables) (file, returned) = .error error := by
    rw [reads, hrun]
  refine ⟨?_, ?_, fun _ => hstep⟩
  · rw [hstep]
    exact h
  · rw [hreads]
    exact iff_of_false Bool.false_ne_true hrejected

theorem step_set
    (h : Told tables returned (payloadOf file)) (id : RepositoryId) (policy : ReviewPolicy) :
    StepSpec tables (file, returned) (.set id policy) :=
  .accepted trivial (h.set id policy) ⟨none, rfl⟩

theorem step_setModelChoice
    (h : Told tables returned (payloadOf file)) (id : RepositoryId) (choice : RepoModelChoice) :
    StepSpec tables (file, returned) (.setModelChoice id choice) := by
  by_cases hknown : isKnownProviderModel choice.providerId choice.modelId = true
  · have hvalid : validateRepoModelChoice choice = .ok choice := if_pos hknown
    refine .accepted hknown (h.setModelChoice id hknown) ⟨none, ?_⟩
    rw [RepoConfigOp.program, RepoConfigStore.setModelChoice, hvalid]
    rfl
  · obtain ⟨error, hinvalid⟩ : ∃ error, validateRepoModelChoice choice = .error error :=
      ⟨_, if_neg hknown⟩
    refine .raised hknown h ⟨error, ?_⟩
    rw [RepoConfigOp.program, RepoConfigStore.setModelChoice, hinvalid]
    rfl

theorem step_markRepositoryPromptUsed
    (h : Told tables returned (payloadOf file)) (id : RepositoryId) (version : PyStr) :
    StepSpec tables (file, returned) (.markRepositoryPromptUsed id version) := by
  have hknown : Accepted tables returned (.markRepositoryPromptUsed id version) ↔
      ((versionsOf tables returned id).lookup version).isSome = true := by
    rw [isSome_lookup_iff, mem_keys_versionsOf, Accepted]
  cases hraw : (versionsOf tables returned id).lookup version with
  | none =>
      rw [hraw] at hknown
      refine .raised (mt hknown.mp Bool.false_ne_true) h
        ⟨.keyError (.ofString "unknown prompt version: " ++ version), ?_⟩
      rw [RepoConfigOp.program, RepoConfigStore.markRepositoryPromptUsed, Program.bind_eq,
        Program.bind_eq, Program.bind_assoc, run_readPayload]
      simp only [h.versions id, hraw]
      rfl
  | some raw =>
      rw [hraw] at hknown
      refine .accepted (hknown.mpr rfl) (h.markRepositoryPromptUsed hraw) ⟨none, ?_⟩
      rw [RepoConfigOp.program, RepoConfigStore.markRepositoryPromptUsed, Program.bind_eq,
        Program.bind_eq, Program.bind_assoc, run_readPayload]
      simp only [h.versions id, hraw]
      rfl

/-- The versions of the file are registered, and the next one can be. -/
theorem register_next
    (h : Told tables returned payload) (id : RepositoryId) (content : PyStr) :
    ∃ registry registered,
      RepoConfigStore.promptRegistryFor tables id (versionsOf tables returned id) =
        .ok registry ∧
      registry.register (repositoryPromptName id)
        (decimal ((promptContents tables returned id).length + 1)) content = .ok registered := by
  refine ⟨(versionsOf tables returned id).map
    (fun item => ((repositoryPromptName id, item.1), item.2.content)), _, ?_, if_neg ?_⟩
  · rw [RepoConfigStore.promptRegistryFor, sortedVersions_versionsOf (h.few id)]
    exact register_versions _ [] (nodup_versionsOf tables returned id) (by simp)
  · intro hmem
    obtain ⟨item, hitem, heq⟩ := List.mem_map.mp hmem
    obtain ⟨old, hold, rfl⟩ := List.mem_map.mp hitem
    have hversion : old.1 ∈ (versionsOf tables returned id).map Prod.fst :=
      List.mem_map_of_mem hold
    rw [(Prod.mk.inj heq).2, mem_keys_versionsOf] at hversion
    obtain ⟨i, hi, hsame⟩ := hversion
    have hplace := decimal_succ_injective hsame
    omega

theorem step_addRepositoryPrompt
    (h : Told tables returned (payloadOf file)) (id : RepositoryId) (content : PyStr) :
    StepSpec tables (file, returned) (.addRepositoryPrompt id content) := by
  have hlength : (versionsOf tables returned id).length =
      (promptContents tables returned id).length := by
    simp [versionsOf]
  have hcast : (((promptContents tables returned id).length : Int) + 1) =
      ((promptContents tables returned id).length + 1 : Nat) := by
    push_cast
    rfl
  by_cases hblank : content.strip tables = ⟨[]⟩
  · refine .raised (fun haccepted => haccepted.1 hblank) h
      ⟨.valueError (.ofString "prompt content must not be empty"), ?_⟩
    rw [RepoConfigOp.program, RepoConfigStore.addRepositoryPrompt]
    dsimp only
    rw [if_pos hblank]
    rfl
  by_cases hfew : (promptContents tables returned id).length + 1 < 10 ^ maxStrDigits
  · obtain ⟨registry, registered, hregistry, hregistered⟩ :=
      register_next h id (content.strip tables)
    refine .accepted ⟨hblank, hfew⟩ (h.addRepositoryPrompt id content hfew) ⟨some ⟨decimal
      ((promptContents tables returned id).length + 1), content.strip tables, false⟩, ?_⟩
    rw [RepoConfigOp.program, RepoConfigStore.addRepositoryPrompt]
    dsimp only
    rw [if_neg hblank, Program.bind_eq, Program.bind_eq, Program.bind_assoc, run_readPayload,
      Program.bind_eq, Program.bind_assoc, run_ofExcept, h.versions id, hlength, hcast,
      intText_eq_ok_iff.mpr ⟨hfew, rfl⟩]
    simp only [Except.mapError, Program.bind_eq, Program.bind_assoc]
    rw [run_ofExcept, hregistry]
    dsimp only
    rw [run_ofExcept, hregistered]
    rfl
  · have herror : intText ((promptContents tables returned id).length + 1 : Nat) =
        .error .valueError :=
      if_pos (by rw [Int.natAbs_natCast]; exact not_lt.mp hfew)
    refine .raised (fun haccepted => hfew haccepted.2) h ⟨.valueError
      (.ofString "Exceeds the limit for integer string conversion"), ?_⟩
    rw [RepoConfigOp.program, RepoConfigStore.addRepositoryPrompt]
    dsimp only
    rw [if_neg hblank, Program.bind_eq, Program.bind_eq, Program.bind_assoc, run_readPayload,
      Program.bind_eq, Program.bind_assoc, run_ofExcept, h.versions id, hlength, hcast, herror]
    rfl

/-- Every operation, on a file that is told. -/
theorem stepSpec
    (h : Told tables returned (payloadOf file)) (op : RepoConfigOp) :
    StepSpec tables (file, returned) op := by
  cases op with
  | set id policy => exact step_set h id policy
  | setModelChoice id choice => exact step_setModelChoice h id choice
  | addRepositoryPrompt id content => exact step_addRepositoryPrompt h id content
  | markRepositoryPromptUsed id version => exact step_markRepositoryPromptUsed h id version

end Runs

/-! ## Runs of the store -/

theorem told_foldl
    {s : ConfigRun} (h : Told tables s.2 (payloadOf s.1)) (ops : List RepoConfigOp) :
    Told tables (ops.foldl (stepConfig tables) s).2
      (payloadOf (ops.foldl (stepConfig tables) s).1) := by
  induction ops generalizing s with
  | nil => exact h
  | cons op rest ih => exact ih (stepSpec h op).told

theorem told_configAfter
    (tables : UnicodeTables) (ops : List RepoConfigOp) :
    Told tables (configAfter tables ops).2 (payloadOf (configAfter tables ops).1) := by
  refine told_foldl ⟨?_, ?_, ?_, ?_, ?_⟩ ops
  · intro id
    rfl
  · intro id
    rfl
  · intro id choice hmem
    cases hmem
  · intro id version hmem
    cases hmem
  · intro id
    exact Nat.pow_pos (by decide)

/-! ## Reads -/

section Reads

variable {s : ConfigRun}

theorem reads_get
    (h : Told tables s.2 (payloadOf s.1)) (coercions : Coercions) (id : RepositoryId) :
    reads (RepoConfigStore.get coercions id) s =
      .ok ((lastPolicy s.2 id).getD defaultReviewPolicy) := by
  rw [reads, RepoConfigStore.get, Program.bind_eq, run_repoEntry, h.entries, split_entryOf]
  dsimp only
  by_cases hnone : lastPolicy s.2 id = none ∧ lastChoice s.2 id = none
  · rw [if_pos hnone, if_pos rfl, hnone.1]
    rfl
  · have hdump : ((lastPolicy s.2 id).getD defaultReviewPolicy).modelDump ≠ [] := nofun
    rw [if_neg hnone, if_neg hdump, modelValidate_modelDump]
    rfl

theorem lastChoice_known
    (h : Told tables returned payload) {id : RepositoryId} {choice : RepoModelChoice}
    (hchoice : lastChoice returned id = some choice) :
    isKnownProviderModel choice.providerId choice.modelId = true := by
  have hmem := List.mem_of_getLast? hchoice
  obtain ⟨op, hop, hset⟩ := List.mem_filterMap.mp hmem
  cases op with
  | setModelChoice other set =>
      rw [choiceSet] at hset
      split at hset
      · cases hset
        exact h.known other choice hop
      · cases hset
  | set other policy => cases hset
  | addRepositoryPrompt other content => cases hset
  | markRepositoryPromptUsed other version => cases hset

theorem reads_getModelChoice
    (h : Told tables s.2 (payloadOf s.1)) (id : RepositoryId) :
    reads (RepoConfigStore.getModelChoice id) s =
      .ok ((lastChoice s.2 id).getD defaultRepoModelChoice) := by
  rw [reads, RepoConfigStore.getModelChoice, Program.bind_eq, run_repoEntry, h.entries,
    split_entryOf]
  cases hchoice : lastChoice s.2 id with
  | none => rfl
  | some choice =>
      have hvalid : validateRepoModelChoice choice = .ok choice :=
        if_pos (lastChoice_known h hchoice)
      change ((Program.ofExcept (validateRepoModelChoice choice) :
        ConfigProgram RepoModelChoice).run answerConfig s.1).1 = _
      rw [hvalid]
      rfl

theorem map_versionsOf
    (tables : UnicodeTables) (returned : List RepoConfigOp) (id : RepositoryId) :
    (versionsOf tables returned id).map (fun item => (⟨item.1, item.2.content, item.2.locked⟩ :
        RepositoryPromptVersion)) =
      promptItems tables returned id := by
  refine List.ext_getElem (by simp [versionsOf, promptItems]) (fun i hi hi' => ?_)
  simp [versionsOf, promptItems]

theorem run_listRepositoryPromptVersions
    (h : Told tables s.2 (payloadOf s.1)) (id : RepositoryId) :
    (RepoConfigStore.listRepositoryPromptVersions tables id).run answerConfig s.1 =
      (.ok (promptItems tables s.2 id), s.1) := by
  rw [RepoConfigStore.listRepositoryPromptVersions, Program.bind_eq, run_repositoryPromptsEntry,
    Program.bind_eq, run_ofExcept, h.versions id, sortedVersions_versionsOf (h.few id)]
  change (Except.ok ((versionsOf tables s.2 id).map _), s.1) = _
  rw [map_versionsOf]

/-- The last prompt is found by its number. -/
theorem find_promptItems
    (tables : UnicodeTables) (returned : List RepoConfigOp) (id : RepositoryId) :
    (promptItems tables returned id).find? (fun item =>
        item.version = decimal (promptContents tables returned id).length) =
      (promptItems tables returned id).getLast? := by
  rcases List.eq_nil_or_concat (promptContents tables returned id) with
    hempty | ⟨front, last, hsplit⟩
  · rw [promptItems, hempty]
    rfl
  · rw [promptItems, hsplit, List.concat_eq_append, List.mapIdx_concat, List.getLast?_concat,
      List.find?_eq_some_iff_append]
    refine ⟨by simp, _, [], rfl, fun item hitem => ?_⟩
    obtain ⟨i, hi, rfl⟩ := List.getElem_of_mem hitem
    rw [List.length_mapIdx] at hi
    simp only [List.getElem_mapIdx, List.length_append, List.length_singleton]
    have hne : decimal (i + 1) ≠ decimal (front.length + 1) := by
      intro heq
      have hsame := decimal_succ_injective heq
      omega
    simp [hne]

theorem reads_getActiveRepositoryPrompt
    (h : Told tables s.2 (payloadOf s.1)) (id : RepositoryId) :
    reads (RepoConfigStore.getActiveRepositoryPrompt tables id) s =
      .ok (promptItems tables s.2 id).getLast? := by
  rw [reads, RepoConfigStore.getActiveRepositoryPrompt, Program.bind_eq,
    run_repositoryPromptsEntry, h.prompts, promptsOf]
  by_cases hempty : promptContents tables s.2 id = []
  · rw [if_pos hempty, promptItems, hempty]
    rfl
  · have hdecimal : decimal (promptContents tables s.2 id).length ≠ ⟨[]⟩ :=
      fun heq => decimal_ne_nil _ (congrArg PyStr.points heq)
    rw [if_neg hempty, Option.getD_some]
    dsimp only
    rw [if_neg hdecimal, Program.bind_eq, Program.run_bind,
      run_listRepositoryPromptVersions h id]
    exact congrArg Except.ok (find_promptItems tables s.2 id)

end Reads

/-! ## What stays -/

/-- An operation that returns is the last one of the history. -/
theorem returned_step
    (s : ConfigRun) (op : RepoConfigOp) :
    (stepConfig tables s op).2 =
      if (reads (op.program tables) s).isOk = true then s.2 ++ [op] else s.2 := by
  rw [stepConfig, reads]
  cases hrun : (op.program tables).run answerConfig s.1 with
  | mk result file =>
      cases result with
      | ok value => rfl
      | error error => rfl

theorem prefix_step
    (s : ConfigRun) (op : RepoConfigOp) :
    s.2 <+: (stepConfig tables s op).2 := by
  rw [returned_step]
  split
  · exact List.prefix_append ..
  · exact List.prefix_rfl

theorem prefix_foldl
    (s : ConfigRun) (ops : List RepoConfigOp) :
    s.2 <+: (ops.foldl (stepConfig tables) s).2 := by
  induction ops generalizing s with
  | nil => exact List.prefix_rfl
  | cons op rest ih => exact (prefix_step s op).trans (ih _)

/-- A policy that is set is never refused. -/
theorem policiesSet_foldl
    {s : ConfigRun} (h : Told tables s.2 (payloadOf s.1)) (ops : List RepoConfigOp)
    (id : RepositoryId) :
    (ops.foldl (stepConfig tables) s).2.filterMap (policySet id) =
      s.2.filterMap (policySet id) ++ ops.filterMap (policySet id) := by
  induction ops generalizing s with
  | nil => rw [List.filterMap_nil, List.append_nil, List.foldl_nil]
  | cons op rest ih =>
      have hspec := stepSpec h op
      have hstep : (stepConfig tables s op).2.filterMap (policySet id) =
          s.2.filterMap (policySet id) ++ [op].filterMap (policySet id) := by
        rw [returned_step]
        split
        · exact List.filterMap_append
        · next hraised =>
            have hnone : policySet id op = none := by
              cases op with
              | set other policy => exact absurd (hspec.returns.mpr trivial) hraised
              | setModelChoice other choice => rfl
              | addRepositoryPrompt other content => rfl
              | markRepositoryPromptUsed other version => rfl
            simp [hnone]
      rw [List.foldl_cons, ih hspec.told, hstep, List.append_assoc, ← List.filterMap_append,
        List.singleton_append]

theorem lastPolicy_configAfter
    (tables : UnicodeTables) (ops : List RepoConfigOp) (id : RepositoryId) :
    lastPolicy (configAfter tables ops).2 id = lastPolicy ops id := by
  have hsets := policiesSet_foldl (told_configAfter tables []) ops id
  exact congrArg List.getLast? hsets

theorem lastPolicy_step
    {id : RepositoryId} (hop : policySet id op = none) (s : ConfigRun) :
    lastPolicy (stepConfig tables s op).2 id = lastPolicy s.2 id := by
  rw [returned_step]
  split
  · exact lastPolicy_append_none hop
  · rfl

theorem lastChoice_step
    {id : RepositoryId} (hop : choiceSet id op = none) (s : ConfigRun) :
    lastChoice (stepConfig tables s op).2 id = lastChoice s.2 id := by
  rw [returned_step]
  split
  · exact lastChoice_append_none hop
  · rfl

/-- Versions keep their contents, and stay locked. -/
theorem promptItems_prefix
    {earlier later : List RepoConfigOp} (h : earlier <+: later) (id : RepositoryId)
    {i : Nat} {item : RepositoryPromptVersion}
    (hitem : (promptItems tables earlier id)[i]? = some item) :
    ∃ locked, (promptItems tables later id)[i]? = some { item with locked := locked } ∧
      (item.locked = true → locked = true) := by
  obtain ⟨more, rfl⟩ := h
  rw [promptItems, List.getElem?_mapIdx, Option.map_eq_some_iff] at hitem
  obtain ⟨content, hcontent, rfl⟩ := hitem
  have hlater : (promptContents tables (earlier ++ more) id)[i]? = some content := by
    rw [promptContents, List.filterMap_append]
    exact List.getElem?_append_left (List.getElem?_eq_some_iff.mp hcontent).1 |>.trans hcontent
  refine ⟨decide (.markRepositoryPromptUsed id (decimal (i + 1)) ∈ earlier ++ more), ?_, ?_⟩
  · rw [promptItems, List.getElem?_mapIdx, hlater]
    rfl
  · intro hlocked
    exact decide_eq_true (List.mem_append_left _ (of_decide_eq_true hlocked))

end Append

/-! ## The frame laws -/

/-- What the reads of the store say after a run, and what operations leave. -/
structure FrameLaws (coercions : Coercions) (ops : List RepoConfigOp) : Prop where
  policy : ∀ id, reads (RepoConfigStore.get coercions id) (configAfter tables ops) =
    .ok ((lastPolicy ops id).getD defaultReviewPolicy)
  policyFrame : ∀ id op, policySet id op = none →
    reads (RepoConfigStore.get coercions id) (configAfter tables (ops ++ [op])) =
      reads (RepoConfigStore.get coercions id) (configAfter tables ops)
  choice : ∀ id, reads (RepoConfigStore.getModelChoice id) (configAfter tables ops) =
    .ok ((lastChoice (configAfter tables ops).2 id).getD defaultRepoModelChoice)
  choiceFrame : ∀ id op, choiceSet id op = none →
    reads (RepoConfigStore.getModelChoice id) (configAfter tables (ops ++ [op])) =
      reads (RepoConfigStore.getModelChoice id) (configAfter tables ops)
  prompts : ∀ id,
    reads (RepoConfigStore.listRepositoryPromptVersions tables id) (configAfter tables ops) =
      .ok (promptItems tables (configAfter tables ops).2 id)
  active : ∀ id,
    reads (RepoConfigStore.getActiveRepositoryPrompt tables id) (configAfter tables ops) =
      .ok (promptItems tables (configAfter tables ops).2 id).getLast?
  kept : ∀ id more items,
    reads (RepoConfigStore.listRepositoryPromptVersions tables id) (configAfter tables ops) =
        .ok items →
      ∃ items', reads (RepoConfigStore.listRepositoryPromptVersions tables id)
          (configAfter tables (ops ++ more)) = .ok items' ∧
        ∀ (i : Nat) (item : RepositoryPromptVersion), items[i]? = some item →
          ∃ locked, items'[i]? = some { item with locked := locked } ∧
            (item.locked = true → locked = true)
  returns : ∀ op : RepoConfigOp,
    (reads (op.program tables) (configAfter tables ops)).isOk = true ↔
      Accepted tables (configAfter tables ops).2 op
  raises : ∀ op : RepoConfigOp,
    (reads (op.program tables) (configAfter tables ops)).isOk = false →
      configAfter tables (ops ++ [op]) = configAfter tables ops

theorem configAfter_append
    (ops more : List RepoConfigOp) :
    configAfter tables (ops ++ more) = more.foldl (stepConfig tables) (configAfter tables ops) :=
  List.foldl_append

/-- After any operations on any repositories, the frame laws hold. -/
theorem repo_config_frames
    (coercions : Coercions) (ops : List RepoConfigOp) :
    FrameLaws tables coercions ops where
  policy := by
    intro id
    rw [reads_get (told_configAfter tables ops), lastPolicy_configAfter]
  policyFrame := by
    intro id op hop
    rw [reads_get (told_configAfter tables _), reads_get (told_configAfter tables _),
      configAfter_append]
    exact congrArg _ (congrArg (Option.getD · _) (lastPolicy_step hop _))
  choice := by
    intro id
    exact reads_getModelChoice (told_configAfter tables ops) id
  choiceFrame := by
    intro id op hop
    rw [reads_getModelChoice (told_configAfter tables _),
      reads_getModelChoice (told_configAfter tables _), configAfter_append]
    exact congrArg _ (congrArg (Option.getD · _) (lastChoice_step hop _))
  prompts := by
    intro id
    rw [reads, run_listRepositoryPromptVersions (told_configAfter tables ops)]
  active := by
    intro id
    exact reads_getActiveRepositoryPrompt (told_configAfter tables ops) id
  kept := by
    intro id more items hitems
    have hprefix : (configAfter tables ops).2 <+: (configAfter tables (ops ++ more)).2 := by
      rw [configAfter_append]
      exact prefix_foldl _ more
    rw [reads, run_listRepositoryPromptVersions (told_configAfter tables ops)] at hitems
    refine ⟨promptItems tables (configAfter tables (ops ++ more)).2 id, ?_, ?_⟩
    · rw [reads, run_listRepositoryPromptVersions (told_configAfter tables (ops ++ more))]
    · intro i item hitem
      rw [← Except.ok.inj hitems] at hitem
      exact promptItems_prefix hprefix id hitem
  returns := by
    intro op
    exact (stepSpec (told_configAfter tables ops) op).returns
  raises := by
    intro op hraised
    rw [configAfter_append]
    exact (stepSpec (told_configAfter tables ops) op).raises hraised

end Frames

end LocalStore
end PrReviewer
