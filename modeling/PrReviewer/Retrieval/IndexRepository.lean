import PrReviewer.Contracts
import PrReviewer.Lib.Program
import PrReviewer.Lib.Run
import PrReviewer.Lib.Table
import PrReviewer.Retrieval.ChunkCode

/-!
# Indexing a repository

retrieval/index_repository.py over the tables of the runner's PostgreSQL.  A generation
is inserted as building, its chunks are written, the active generation of the repository
is retired and the new one activated, and all of it is committed at once.

The connection is not in autocommit mode, so that a statement is seen by others after the
commit only.  What PostgreSQL refuses of a single row beyond the constraints of the
tables (the size of an index entry or of a tsvector) is a parameter.
-/

namespace PrReviewer
namespace Retrieval

open Lib

inductive GenerationState where
  | building
  | active
  | retired
deriving DecidableEq, Repr

/-- A row of `embedding_generations`. -/
structure EmbeddingGeneration where
  id : Uuid
  installationId : Int
  repositoryId : Int
  commitSha : String
  modelName : String
  dimensions : Int
  state : GenerationState
deriving DecidableEq

/-- The repository a generation is of. -/
def EmbeddingGeneration.repository (g : EmbeddingGeneration) : Int × Int :=
  (g.installationId, g.repositoryId)

abbrev Embedding : Type :=
  List PyFloat

/-- A row of `code_chunks`. -/
structure ChunkRow where
  generationId : Uuid
  chunk : CodeChunk
  embedding : Embedding

structure RetrievalDatabase where
  generations : Table EmbeddingGeneration.id
  chunks : List ChunkRow

/-- What a call of `index_repository` raises. -/
inductive IndexError where
  | python (error : PyException)
  | embeddingContractError
  | embeddingDimensionError
  | uniqueViolation
  | refusedRow
  | other (name : String)
deriving DecidableEq, Repr

structure EmbeddingProvider where
  modelName : String
  dimensions : Int

def v1EmbeddingDimensions : Nat := 1536

/-- The arguments of `index_repository`; the tree is what the root holds. -/
structure IndexRequest where
  tree : SourceTree
  installationId : Int
  repositoryId : Int
  commitSha : String
  embedder : EmbeddingProvider
  leftOut : LeftOut

def IndexRequest.repository (request : IndexRequest) : Int × Int :=
  (request.installationId, request.repositoryId)

/-- The row of the generation of a request, while it is built. -/
def IndexRequest.generation (request : IndexRequest) (id : Uuid) : EmbeddingGeneration where
  id := id
  installationId := request.installationId
  repositoryId := request.repositoryId
  commitSha := request.commitSha
  modelName := request.embedder.modelName
  dimensions := v1EmbeddingDimensions
  state := .building

/-- The statements and calls of `index_repository`. -/
inductive IndexOp where
  | assertV1EmbeddingContract
  | readTree
  | embed (texts : List PyStr)
  | insertGeneration
  | insertChunk (generationId : Uuid) (chunk : CodeChunk) (vector : Embedding)
  | retire (generationId : Uuid)
  | activate (generationId : Uuid)
  | commit
  | rollback

abbrev IndexOp.Value : IndexOp → Type
  | .readTree => SourceTree
  | .embed _ => List Embedding
  | .insertGeneration => Uuid
  | _ => Unit

abbrev IndexOp.Result (op : IndexOp) : Type :=
  Except IndexError op.Value

abbrev IndexProgram : Type → Type :=
  Program IndexOp.Result IndexError

def callIndex (op : IndexOp) : IndexProgram op.Value := do
  let result ← (Program.perform op : IndexProgram op.Result)
  Program.ofExcept result

/-- `embed_texts`. -/
def embedTexts (provider : EmbeddingProvider) (texts : List PyStr) :
    IndexProgram (List Embedding) :=
  if provider.dimensions ≠ v1EmbeddingDimensions then
    .raise .embeddingDimensionError
  else if texts.isEmpty then
    return []
  else do
    let vectors ← callIndex (.embed texts)
    if vectors.length ≠ texts.length then
      .raise .embeddingDimensionError
    else if vectors.all (fun vector => vector.length = v1EmbeddingDimensions) then
      return vectors
    else
      .raise .embeddingDimensionError

/-- The end of `zip(chunks, vectors, strict=True)`. -/
def zipEnds (chunks : List CodeChunk) (vectors : List Embedding) : IndexProgram Unit :=
  if chunks.length = vectors.length then return () else .raise (.python .valueError)

/-- The `try` block of `index_repository`. -/
def writeGeneration (chunks : List CodeChunk) (vectors : List Embedding) : IndexProgram Uuid := do
  let generationId ← callIndex .insertGeneration
  Program.forEach (chunks.zip vectors) (fun p => callIndex (.insertChunk generationId p.1 p.2))
  zipEnds chunks vectors
  callIndex (.retire generationId)
  callIndex (.activate generationId)
  callIndex .commit
  return generationId

/-- `index_repository`; it returns the active generation. -/
def indexRepository (interpreter : Interpreter) (request : IndexRequest) :
    IndexProgram EmbeddingGeneration := do
  callIndex .assertV1EmbeddingContract
  let tree ← callIndex .readTree
  let chunks ← Program.ofExcept
    ((chunkTree interpreter request.leftOut tree).mapError .python)
  let vectors ← embedTexts request.embedder (chunks.map CodeChunk.content)
  let generationId ← (writeGeneration chunks vectors).catching (fun error => do
    callIndex .rollback
    .raise error)
  return { request.generation generationId with state := .active }

/-! ## The tables -/

/-- What PostgreSQL admits of a single row of `code_chunks`, beyond its check constraints. -/
structure RowLimits where
  /-- Its index entries and its tsvector are not too large. -/
  admitsChunk : CodeChunk → Bool
  /-- The literal is a `vector(1536)`. -/
  admitsVector : Embedding → Bool

/-- The row meets the constraints of its own. -/
def RowLimits.accepts (limits : RowLimits) (chunk : CodeChunk) (vector : Embedding) : Bool :=
  decide (0 < chunk.startLine ∧ chunk.startLine ≤ chunk.endLine) &&
    (fitsInteger chunk.startLine && fitsInteger chunk.endLine) &&
    limits.admitsChunk chunk && limits.admitsVector vector

/-- psycopg encodes the texts of a row; a lone surrogate is a `UnicodeEncodeError`. -/
def CodeChunk.encodable (chunk : CodeChunk) : Bool :=
  [chunk.filePath, chunk.language, chunk.content, chunk.identity].all
    (fun text => text.text?.isSome)

/-- What the row of a generation is bound to. -/
def EmbeddingGeneration.fits (g : EmbeddingGeneration) : Bool :=
  fitsInteger g.installationId && fitsInteger g.repositoryId && fitsText g.commitSha &&
    fitsText g.modelName

namespace RetrievalDatabase

variable (db : RetrievalDatabase)

/-- `insert into embedding_generations`. -/
def insertGeneration (row : EmbeddingGeneration) : Except IndexError RetrievalDatabase :=
  if row.fits then
    match db.generations.insert? row with
    | none => .error .uniqueViolation
    | some generations => .ok { db with generations := generations }
  else
    .error .refusedRow

/-- `insert into code_chunks`: the generation exists, and the identity is new in it. -/
def insertChunk (limits : RowLimits) (row : ChunkRow) : Except IndexError RetrievalDatabase :=
  if ¬ row.chunk.encodable then
    .error (.python .valueError)
  else if ∃ other ∈ db.chunks, other.generationId = row.generationId ∧
      other.chunk.identity = row.chunk.identity then
    .error .uniqueViolation
  else if limits.accepts row.chunk row.embedding ∧
      ∃ g ∈ db.generations.rows, g.id = row.generationId then
    .ok { db with chunks := db.chunks ++ [row] }
  else
    .error .refusedRow

/-- The active generations of the repository are retired, but for one. -/
def retire (repository : Int × Int) (generationId : Uuid) : RetrievalDatabase :=
  let retired := db.generations.updateWhere
    (fun g => decide (g.repository = repository ∧ g.state = .active ∧ g.id ≠ generationId))
    (fun g => { g with state := .retired }) (fun _ => rfl)
  { db with generations := retired }

/-- A generation that is built becomes active, unless its repository has another one. -/
def activate (generationId : Uuid) : Except IndexError RetrievalDatabase :=
  let activated := db.generations.updateWhere
    (fun g => decide (g.id = generationId ∧ g.state = .building))
    (fun g => { g with state := .active }) (fun _ => rfl)
  if ∃ g ∈ activated.rows, ∃ g' ∈ activated.rows, g.state = .active ∧ g'.state = .active ∧
      g.repository = g'.repository ∧ g ≠ g' then
    .error .uniqueViolation
  else
    .ok { db with generations := activated }

/-- The rows `queryable_chunks` selects, in some order of its `order by`. -/
def queryableChunks (before : CodeChunk → CodeChunk → Bool) (repository : Int × Int) :
    List CodeChunk :=
  ((db.chunks.filter (fun row => decide (∃ g ∈ db.generations.rows,
    g.id = row.generationId ∧ g.repository = repository ∧ g.state = .active))).map
      ChunkRow.chunk).insertionSort (fun a b => before a b = true)

/-- The active generations of a repository. -/
def activeGenerations (repository : Int × Int) : List EmbeddingGeneration :=
  db.generations.rows.filter
    (fun g => decide (g.repository = repository ∧ g.state = .active))

end RetrievalDatabase

/-! ## The connection -/

/-- What happens at one call: it may raise, an embedder answers, and an id is generated. -/
structure IndexTurn where
  raises : Option IndexError
  vectors : List Embedding
  newId : Uuid

/--
The committed tables and those the transaction sees; the requests whose commit was
accepted, in their order.
-/
structure IndexState where
  committed : RetrievalDatabase
  working : RetrievalDatabase
  landed : List IndexRequest
  clock : Nat

/-- What a call returns, unless it raises. -/
def IndexTurn.outcome {α : Type} (turn : IndexTurn) (value : α) : Except IndexError α :=
  match turn.raises with
  | some error => .error error
  | none => .ok value

def IndexState.tick (s : IndexState) : IndexState :=
  { s with clock := s.clock + 1 }

/-- A statement of the transaction: unless it raises, it writes what it computes. -/
def IndexState.statement (s : IndexState) (turn : IndexTurn)
    (write : RetrievalDatabase → Except IndexError RetrievalDatabase) :
    Except IndexError Unit × IndexState :=
  match turn.raises with
  | some error => (.error error, s)
  | none =>
      match write s.working with
      | .ok db => (.ok (), { s with working := db })
      | .error error => (.error error, s)

/-- The commit of a request. -/
def IndexState.commit (s : IndexState) (turn : IndexTurn) (request : IndexRequest) :
    Except IndexError Unit × IndexState :=
  match turn.raises with
  | some error => (.error error, s)
  | none => (.ok (), { s with committed := s.working, landed := s.landed ++ [request] })

/-- The statements and calls as the connection and the embedder answer them. -/
def IndexRequest.answer (limits : RowLimits) (turns : Nat → IndexTurn) (request : IndexRequest) :
    (op : IndexOp) → IndexState → op.Result × IndexState
  | .assertV1EmbeddingContract, s => ((turns s.clock).outcome (), s.tick)
  | .readTree, s => ((turns s.clock).outcome request.tree, s.tick)
  | .embed _, s => ((turns s.clock).outcome (turns s.clock).vectors, s.tick)
  | .insertGeneration, s =>
      let turn := turns s.clock
      let written := s.tick.statement turn
        (fun db => db.insertGeneration (request.generation turn.newId))
      (written.1.map (fun _ => turn.newId), written.2)
  | .insertChunk generationId chunk vector, s =>
      s.tick.statement (turns s.clock)
        (fun db => db.insertChunk limits ⟨generationId, chunk, vector⟩)
  | .retire generationId, s =>
      s.tick.statement (turns s.clock)
        (fun db => .ok (db.retire request.repository generationId))
  | .activate generationId, s =>
      s.tick.statement (turns s.clock) (fun db => db.activate generationId)
  | .commit, s => s.tick.commit (turns s.clock) request
  | .rollback, s => ((turns s.clock).outcome (), { s.tick with working := s.committed })

/-- A call of `index_repository`, killed after a number of its steps. -/
structure IndexCall where
  request : IndexRequest
  killedAfter : Nat

/-- After the call its connection is closed, or its transaction is at its end. -/
def indexStep (interpreter : Interpreter) (limits : RowLimits) (turns : Nat → IndexTurn)
    (s : IndexState) (c : IndexCall) : IndexState :=
  let s' := Program.killed (c.request.answer limits turns) c.killedAfter
    (indexRepository interpreter c.request) s
  { s' with working := s'.committed }

def RetrievalDatabase.empty : RetrievalDatabase where
  generations := .empty
  chunks := []

def IndexState.new : IndexState where
  committed := .empty
  working := .empty
  landed := []
  clock := 0

/-- The state after the calls. -/
def indexedState (interpreter : Interpreter) (limits : RowLimits) (turns : Nat → IndexTurn)
    (calls : List IndexCall) : IndexState :=
  exec (indexStep interpreter limits turns) .new calls

end Retrieval
end PrReviewer
