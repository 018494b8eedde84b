import Mathlib.Tactic
import PrReviewer.Lib.Dict
import PrReviewer.Lib.Program
import PrReviewer.Lib.Sorting
import PrReviewer.Lib.Text

/-!
# The configuration of repositories

local_store/repo_config.py, with the registry of prompts/registry.py, `ReviewPolicy` of
security/instruction_sources.py and the catalogue of models/catalogue.py.  The store keeps one
JSON file.  The policy of a repository and its choice of a model are the items of one object in
it, and the prompts of the repository stand in another.

The file is one the store wrote, and JSON gives back what was written; the order of the items of
an object says nothing.  What pydantic makes of a value of another type is a parameter.
-/

namespace PrReviewer
namespace LocalStore

open Lib

/-! ## The catalogue -/

structure ProviderEntry where
  providerId : PyStr
  models : List PyStr
deriving DecidableEq, Repr

/-- `CATALOGUE`. -/
def catalogue : List ProviderEntry :=
  [⟨.ofString "openai",
      ["gpt-4o-mini", "gpt-4o", "gpt-4.1-mini", "gpt-4.1", "o3-mini"].map PyStr.ofString⟩,
    ⟨.ofString "anthropic",
      ["claude-3-5-haiku-latest", "claude-3-5-sonnet-latest", "claude-3-7-sonnet-latest",
        "claude-sonnet-4-20250514", "claude-haiku-4-20250414"].map PyStr.ofString⟩]

/-- `models_for`; an unknown provider raises KeyError. -/
def modelsFor (providerId : PyStr) : Option (List PyStr) :=
  (catalogue.find? (fun entry => entry.providerId = providerId)).map ProviderEntry.models

/-- `is_known_provider_model`. -/
def isKnownProviderModel (providerId modelId : PyStr) : Bool :=
  match modelsFor providerId with
  | none => false
  | some models => models.contains modelId

structure RepoModelChoice where
  providerId : PyStr
  modelId : PyStr
deriving DecidableEq, Repr

/-- `default_repo_model_choice`: the first provider, and its first model. -/
def defaultRepoModelChoice : RepoModelChoice :=
  ⟨.ofString "openai", .ofString "gpt-4o-mini"⟩

/-! ## Policies -/

inductive PolicyRouting where
  | queueForHuman
deriving DecidableEq, Repr

structure ReviewPolicy where
  instructionsEnabled : Bool
  autoPost : Bool
  specialistMode : Bool
  verificationRequired : Bool
  publicPosting : Bool
  routing : PolicyRouting
  budgetTokens : Nat
deriving DecidableEq, Repr

/-- `default_review_policy`. -/
def defaultReviewPolicy : ReviewPolicy where
  instructionsEnabled := false
  autoPost := false
  specialistMode := false
  verificationRequired := true
  publicPosting := false
  routing := .queueForHuman
  budgetTokens := 128000

/-- A value in the object of a repository. -/
inductive EntryValue where
  | bool (b : Bool)
  | int (n : Int)
  | str (s : PyStr)
deriving DecidableEq, Repr

abbrev RepoEntry := List (String × EntryValue)

def queueForHuman : PyStr := .ofString "queue_for_human"

/-- `policy.model_dump()`. -/
def ReviewPolicy.modelDump (policy : ReviewPolicy) : RepoEntry :=
  [("instructions_enabled", .bool policy.instructionsEnabled),
    ("auto_post", .bool policy.autoPost),
    ("specialist_mode", .bool policy.specialistMode),
    ("verification_required", .bool policy.verificationRequired),
    ("public_posting", .bool policy.publicPosting),
    ("routing", .str queueForHuman),
    ("budget_tokens", .int policy.budgetTokens)]

inductive RepoConfigError where
  | valueError (message : PyStr)
  | keyError (message : PyStr)
  | promptVersionImmutable
  | validationError
deriving DecidableEq, Repr

/-- What pydantic makes of a value that is no boolean, and of one that is no integer. -/
structure Coercions where
  boolOf : EntryValue → Option Bool
  intOf : EntryValue → Option Int

section Validate

variable (coercions : Coercions)

def boolField (data : RepoEntry) (name : String) (byDefault : Bool) :
    Except RepoConfigError Bool :=
  match data.lookup name with
  | none => .ok byDefault
  | some (.bool b) => .ok b
  | some value =>
      match coercions.boolOf value with
      | some b => .ok b
      | none => .error .validationError

/-- The budget, which is not negative. -/
def budgetField (data : RepoEntry) : Except RepoConfigError Nat :=
  match data.lookup "budget_tokens" with
  | none => .ok defaultReviewPolicy.budgetTokens
  | some value =>
      let number :=
        match value with
        | .int n => some n
        | other => coercions.intOf other
      match number with
      | some n => if 0 ≤ n then .ok n.toNat else .error .validationError
      | none => .error .validationError

def routingField (data : RepoEntry) : Except RepoConfigError PolicyRouting :=
  match data.lookup "routing" with
  | none => .ok .queueForHuman
  | some value =>
      if value = .str queueForHuman then .ok .queueForHuman else .error .validationError

/-- `ReviewPolicy.model_validate`; other items are forbidden. -/
def modelValidate (data : RepoEntry) : Except RepoConfigError ReviewPolicy :=
  if data.all (fun item => (defaultReviewPolicy.modelDump.map Prod.fst).contains item.1) then do
    let instructionsEnabled ← boolField coercions data "instructions_enabled" false
    let autoPost ← boolField coercions data "auto_post" false
    let specialistMode ← boolField coercions data "specialist_mode" false
    let verificationRequired ← boolField coercions data "verification_required" true
    let publicPosting ← boolField coercions data "public_posting" false
    let routing ← routingField data
    let budgetTokens ← budgetField coercions data
    return ⟨instructionsEnabled, autoPost, specialistMode, verificationRequired, publicPosting,
      routing, budgetTokens⟩
  else
    .error .validationError

/-- A dumped policy is the policy again. -/
theorem modelValidate_modelDump
    (policy : ReviewPolicy) :
    modelValidate coercions policy.modelDump = .ok policy := by
  obtain ⟨instructions, autoPost, specialist, verification, posting, routing, budget⟩ := policy
  cases routing
  rfl

end Validate

/-! ## The file -/

/-- The id of a repository, short enough for `str`. -/
abbrev RepositoryId := {id : Int // id.natAbs < 10 ^ maxStrDigits}

/-- `str(github_repository_id)`. -/
def repositoryKey (id : RepositoryId) : PyStr :=
  intDigits id.val

theorem repositoryKey_injective :
    Function.Injective repositoryKey :=
  fun _ _ h => Subtype.ext (intDigits_injective h)

/-- The object of one prompt version. -/
structure PromptEntry where
  content : PyStr
  locked : Bool
deriving DecidableEq, Repr

/-- The prompts of a repository; an active version may be null or missing. -/
structure PromptsEntry where
  versions : List (PyStr × PromptEntry)
  activeVersion : Option PyStr
deriving DecidableEq, Repr

/-- The JSON object of the file, either part of which may be missing. -/
structure ConfigPayload where
  repositories : Option (List (PyStr × RepoEntry))
  repositoryPrompts : Option (List (PyStr × PromptsEntry))
deriving DecidableEq, Repr

structure RepositoryPromptVersion where
  version : PyStr
  content : PyStr
  locked : Bool
deriving DecidableEq, Repr

inductive ConfigOp where
  | readText
  | writeText (payload : ConfigPayload)

abbrev ConfigOp.Result : ConfigOp → Type
  | .readText => Option ConfigPayload
  | .writeText _ => Unit

abbrev ConfigProgram : Type → Type :=
  Program ConfigOp.Result RepoConfigError

/-- The file system: the file holds what was written last. -/
def answerConfig :
    (op : ConfigOp) → Option ConfigPayload → op.Result × Option ConfigPayload
  | .readText, file => (file, file)
  | .writeText payload, _ => ((), some payload)

/-- The payload of a file, or of none. -/
def payloadOf (file : Option ConfigPayload) : ConfigPayload :=
  file.getD ⟨some [], none⟩

/-- `_read_payload`. -/
def readPayload : ConfigProgram ConfigPayload := do
  let file ← (Program.perform ConfigOp.readText : ConfigProgram (Option ConfigPayload))
  return payloadOf file

/-- `_write_payload`. -/
def writePayload (payload : ConfigPayload) : ConfigProgram Unit :=
  Program.perform (ConfigOp.writeText payload)

/-! ## Policies and choices -/

/-- `_MODEL_CHOICE_KEYS`. -/
def modelChoiceKeys : List String := ["provider_id", "model_id"]

/-- `_split_repo_entry`. -/
def splitRepoEntry (entry : RepoEntry) : RepoEntry × RepoEntry :=
  (entry.filter (fun item => !modelChoiceKeys.contains item.1),
    modelChoiceKeys.filterMap (fun key => (entry.lookup key).map (fun value => (key, value))))

/-- `{**items, **more}`. -/
def dictMerge (items more : RepoEntry) : RepoEntry :=
  more.foldl (fun merged item => dictSet merged item.1 item.2) items

/-- `str(value)`. -/
def EntryValue.text : EntryValue → PyStr
  | .bool true => .ofString "True"
  | .bool false => .ofString "False"
  | .int n => intDigits n
  | .str s => s

/-- `validate_repo_model_choice`. -/
def validateRepoModelChoice (choice : RepoModelChoice) :
    Except RepoConfigError RepoModelChoice :=
  if isKnownProviderModel choice.providerId choice.modelId then
    .ok choice
  else
    .error (.valueError (.ofString "unknown provider/model pair: " ++ choice.providerId ++
      .ofString "/" ++ choice.modelId))

namespace RepoConfigStore

/-- `_repo_entry`. -/
def repoEntry (id : RepositoryId) : ConfigProgram RepoEntry := do
  let payload ← readPayload
  return ((payload.repositories.getD []).lookup (repositoryKey id)).getD []

/-- `get`. -/
def get (coercions : Coercions) (id : RepositoryId) : ConfigProgram ReviewPolicy := do
  let entry ← repoEntry id
  let policyData := (splitRepoEntry entry).1
  if policyData = [] then
    return defaultReviewPolicy
  else
    Program.ofExcept (modelValidate coercions policyData)

/-- `get_model_choice`. -/
def getModelChoice (id : RepositoryId) : ConfigProgram RepoModelChoice := do
  let entry ← repoEntry id
  let choiceData := (splitRepoEntry entry).2
  match choiceData.lookup "provider_id", choiceData.lookup "model_id" with
  | some providerId, some modelId =>
      Program.ofExcept (validateRepoModelChoice ⟨providerId.text, modelId.text⟩)
  | _, _ => return defaultRepoModelChoice

/-- `set`. -/
def set (id : RepositoryId) (policy : ReviewPolicy) : ConfigProgram Unit := do
  let payload ← readPayload
  let repositories := payload.repositories.getD []
  let entry := (repositories.lookup (repositoryKey id)).getD []
  let choiceData := (splitRepoEntry entry).2
  writePayload { payload with
    repositories :=
      some (dictSet repositories (repositoryKey id) (dictMerge policy.modelDump choiceData)) }

/-- `set_model_choice`. -/
def setModelChoice (id : RepositoryId) (choice : RepoModelChoice) : ConfigProgram Unit := do
  let validated ← Program.ofExcept (validateRepoModelChoice choice)
  let payload ← readPayload
  let repositories := payload.repositories.getD []
  let entry := (repositories.lookup (repositoryKey id)).getD []
  let policyData :=
    if (splitRepoEntry entry).1 = [] then defaultReviewPolicy.modelDump
    else (splitRepoEntry entry).1
  writePayload { payload with
    repositories :=
      some (dictSet repositories (repositoryKey id)
        (dictMerge policyData
          [("provider_id", .str validated.providerId), ("model_id", .str validated.modelId)])) }

end RepoConfigStore

/-! ## Prompts -/

/-- `PromptRegistry`, its contents by name and version. -/
abbrev PromptRegistry := List ((PyStr × PyStr) × PyStr)

/-- `PromptRegistry.register`. -/
def PromptRegistry.register (registry : PromptRegistry) (name version content : PyStr) :
    Except RepoConfigError PromptRegistry :=
  if (name, version) ∈ registry.map Prod.fst then
    .error .promptVersionImmutable
  else
    .ok (dictSet registry (name, version) content)

/-- `repository_prompt_name`. -/
def repositoryPromptName (id : RepositoryId) : PyStr :=
  .ofString "repository-" ++ repositoryKey id ++ .ofString "-custom"

section Prompts

variable (tables : UnicodeTables)

/-- `int(item)`. -/
def versionNumber (version : PyStr) : Except RepoConfigError Int :=
  match intOfText tables version with
  | some n => .ok n
  | none => .error (.valueError (.ofString "invalid literal for int()"))

/-- `sorted(versions, key=lambda item: int(item))`. -/
def sortedVersions (versions : List (PyStr × PromptEntry)) :
    Except RepoConfigError (List (PyStr × PromptEntry)) :=
  sortByKey (fun item => versionNumber tables item.1) versions

namespace RepoConfigStore

/-- `_repository_prompts_entry`. -/
def repositoryPromptsEntry (id : RepositoryId) : ConfigProgram PromptsEntry := do
  let payload ← readPayload
  return ((payload.repositoryPrompts.getD []).lookup (repositoryKey id)).getD ⟨[], none⟩

/-- `list_repository_prompt_versions`. -/
def listRepositoryPromptVersions (id : RepositoryId) :
    ConfigProgram (List RepositoryPromptVersion) := do
  let repoPrompts ← repositoryPromptsEntry id
  let sorted ← Program.ofExcept (sortedVersions tables repoPrompts.versions)
  return sorted.map (fun item => ⟨item.1, item.2.content, item.2.locked⟩)

/-- `get_active_repository_prompt`. -/
def getActiveRepositoryPrompt (id : RepositoryId) :
    ConfigProgram (Option RepositoryPromptVersion) := do
  let repoPrompts ← repositoryPromptsEntry id
  match repoPrompts.activeVersion with
  | none => return none
  | some active =>
      if active = ⟨[]⟩ then
        return none
      else do
        let items ← listRepositoryPromptVersions tables id
        return items.find? (fun item => item.version = active)

/-- `_prompt_registry_for`. -/
def promptRegistryFor (id : RepositoryId) (versions : List (PyStr × PromptEntry)) :
    Except RepoConfigError PromptRegistry := do
  let sorted ← sortedVersions tables versions
  sorted.foldlM (fun (registry : PromptRegistry) item =>
    registry.register (repositoryPromptName id) item.1 item.2.content) []

/-- `add_repository_prompt`. -/
def addRepositoryPrompt (id : RepositoryId) (content : PyStr) :
    ConfigProgram RepositoryPromptVersion :=
  let cleaned := content.strip tables
  if cleaned = ⟨[]⟩ then
    Program.raise (.valueError (.ofString "prompt content must not be empty"))
  else do
    let payload ← readPayload
    let prompts := payload.repositoryPrompts.getD []
    let repoPrompts := (prompts.lookup (repositoryKey id)).getD ⟨[], none⟩
    let nextVersion ← Program.ofExcept ((intText (repoPrompts.versions.length + 1)).mapError
      (fun _ => .valueError (.ofString "Exceeds the limit for integer string conversion")))
    let registry ← Program.ofExcept (promptRegistryFor tables id repoPrompts.versions)
    let _ ← (Program.ofExcept (registry.register (repositoryPromptName id) nextVersion cleaned) :
      ConfigProgram PromptRegistry)
    writePayload { payload with
      repositoryPrompts :=
        some (dictSet prompts (repositoryKey id)
          ⟨dictSet repoPrompts.versions nextVersion ⟨cleaned, false⟩, some nextVersion⟩) }
    return ⟨nextVersion, cleaned, false⟩

/-- `mark_repository_prompt_used`. -/
def markRepositoryPromptUsed (id : RepositoryId) (version : PyStr) : ConfigProgram Unit := do
  let payload ← readPayload
  let prompts := payload.repositoryPrompts.getD []
  let repoPrompts := (prompts.lookup (repositoryKey id)).getD ⟨[], none⟩
  match repoPrompts.versions.lookup version with
  | none =>
      Program.raise (.keyError (.ofString "unknown prompt version: " ++ version))
  | some raw =>
      writePayload { payload with
        repositoryPrompts :=
          some (dictSet prompts (repositoryKey id)
            { repoPrompts with
              versions := dictSet repoPrompts.versions version { raw with locked := true } }) }

end RepoConfigStore

end Prompts

end LocalStore
end PrReviewer
