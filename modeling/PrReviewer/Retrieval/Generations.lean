import PrReviewer.Retrieval.IndexRepository

/-!
# Queries see the last complete index

The committed tables after any calls of `index_repository`: a repository has at most one
active generation, and its chunks are those of the tree of the last call that landed.
-/

namespace PrReviewer
namespace Retrieval

open Lib

/-- The chunks of the tree of a request. -/
def IndexRequest.chunks (interpreter : Interpreter) (request : IndexRequest) : List CodeChunk :=
  (chunkTree interpreter request.leftOut request.tree).toOption.getD []

/-- The chunks of the last request that landed for a repository. -/
def lastIndexed (interpreter : Interpreter) (landed : List IndexRequest)
    (repository : Int × Int) : List CodeChunk :=
  match (landed.filter (fun request => request.repository = repository)).getLast? with
  | none => []
  | some request => request.chunks interpreter

namespace RetrievalDatabase

/-- The chunk is one of an active generation of the repository. -/
def Serves (db : RetrievalDatabase) (repository : Int × Int) (chunk : CodeChunk) : Prop :=
  ∃ row ∈ db.chunks, row.chunk = chunk ∧ ∃ g ∈ db.generations.rows,
    g.id = row.generationId ∧ g.repository = repository ∧ g.state = .active

theorem mem_queryableChunks
    {db : RetrievalDatabase} {before : CodeChunk → CodeChunk → Bool}
    {repository : Int × Int} {chunk : CodeChunk} :
    chunk ∈ db.queryableChunks before repository ↔ db.Serves repository chunk := by
  unfold queryableChunks Serves
  rw [List.Perm.mem_iff (List.perm_insertionSort _ _), List.mem_map]
  simp only [List.mem_filter, decide_eq_true_eq]
  constructor
  · rintro ⟨row, ⟨hrow, hactive⟩, hchunk⟩
    exact ⟨row, hrow, hchunk, hactive⟩
  · rintro ⟨row, hrow, hchunk, hactive⟩
    exact ⟨row, ⟨hrow, hactive⟩, hchunk⟩

/-- What the committed tables satisfy, given the requests that landed. -/
structure Consistent (interpreter : Interpreter) (db : RetrievalDatabase)
    (landed : List IndexRequest) : Prop where
  oneActive : ∀ g ∈ db.generations.rows, ∀ g' ∈ db.generations.rows,
    g.state = .active → g'.state = .active → g.repository = g'.repository → g = g'
  serves : ∀ repository chunk,
    db.Serves repository chunk ↔ chunk ∈ lastIndexed interpreter landed repository
  references : ∀ row ∈ db.chunks, ∃ g ∈ db.generations.rows, g.id = row.generationId

end RetrievalDatabase

theorem lastIndexed_concat
    (interpreter : Interpreter) (landed : List IndexRequest) (request : IndexRequest)
    (repository : Int × Int) :
    lastIndexed interpreter (landed ++ [request]) repository =
      if request.repository = repository then request.chunks interpreter
      else lastIndexed interpreter landed repository := by
  unfold lastIndexed
  rw [List.filter_append]
  by_cases hrepository : request.repository = repository
  · rw [if_pos hrepository, List.filter_cons_of_pos (by simpa using hrepository),
      List.filter_nil, List.getLast?_concat]
  · rw [if_neg hrepository, List.filter_cons_of_neg (by simpa using hrepository),
      List.filter_nil, List.append_nil]

/-! ## One generation after another -/

section Replace

variable {interpreter : Interpreter} {db db' : RetrievalDatabase} {landed : List IndexRequest}
variable {request : IndexRequest} {id : Uuid}

/-- The row of an earlier generation after the retirement. -/
def retiredRow (request : IndexRequest) (id : Uuid) (g : EmbeddingGeneration) :
    EmbeddingGeneration :=
  if g.repository = request.repository ∧ g.state = .active ∧ g.id ≠ id then
    { g with state := .retired }
  else
    g

/-- The tables in which a new generation has taken the place of the active one. -/
structure Replaced (db db' : RetrievalDatabase) (request : IndexRequest) (id : Uuid)
    (rows : List (CodeChunk × Embedding)) : Prop where
  fresh : ∀ g ∈ db.generations.rows, g.id ≠ id
  generations : db'.generations.rows =
    db.generations.rows.map (retiredRow request id) ++
      [{ request.generation id with state := .active }]
  chunks : db'.chunks = db.chunks ++ rows.map (fun p => ⟨id, p.1, p.2⟩)

@[simp] theorem retiredRow_id
    (g : EmbeddingGeneration) :
    (retiredRow request id g).id = g.id := by
  unfold retiredRow
  split
  · rfl
  · rfl

@[simp] theorem retiredRow_repository
    (g : EmbeddingGeneration) :
    (retiredRow request id g).repository = g.repository := by
  unfold retiredRow
  split
  · rfl
  · rfl

/-- A generation that is still active was active, and is of another repository. -/
theorem retiredRow_active_iff
    {g : EmbeddingGeneration}
    (hfresh : g.id ≠ id) :
    (retiredRow request id g).state = .active ↔
      g.state = .active ∧ g.repository ≠ request.repository := by
  unfold retiredRow
  by_cases hrepository : g.repository = request.repository
  · by_cases hactive : g.state = .active
    · simp [hrepository, hactive, hfresh]
    · simp [hactive]
  · simp [hrepository]

theorem retiredRow_of_other
    {g : EmbeddingGeneration}
    (h : g.repository ≠ request.repository) :
    retiredRow request id g = g := by
  unfold retiredRow
  rw [if_neg (fun hall => h hall.1)]

theorem Replaced.mem_generations
    {rows : List (CodeChunk × Embedding)}
    (h : Replaced db db' request id rows) {g : EmbeddingGeneration} :
    g ∈ db'.generations.rows ↔
      (∃ old ∈ db.generations.rows, g = retiredRow request id old) ∨
        g = { request.generation id with state := .active } := by
  rw [h.generations, List.mem_append, List.mem_map, List.mem_singleton]
  constructor
  · rintro (⟨old, hold, rfl⟩ | hnew)
    · exact .inl ⟨old, hold, rfl⟩
    · exact .inr hnew
  · rintro (⟨old, hold, rfl⟩ | hnew)
    · exact .inl ⟨old, hold, rfl⟩
    · exact .inr hnew

/-- The active generations after the replacement: those of other repositories, and the new. -/
theorem Replaced.active
    {rows : List (CodeChunk × Embedding)}
    (h : Replaced db db' request id rows) {g : EmbeddingGeneration}
    (hg : g ∈ db'.generations.rows) (hactive : g.state = .active) :
    (g ∈ db.generations.rows ∧ g.repository ≠ request.repository) ∨
      (g.id = id ∧ g.repository = request.repository ∧
        g = { request.generation id with state := .active }) := by
  rcases h.mem_generations.mp hg with ⟨old, hold, rfl⟩ | rfl
  · obtain ⟨_, hother⟩ := (retiredRow_active_iff (h.fresh old hold)).mp hactive
    rw [retiredRow_of_other hother]
    exact .inl ⟨hold, hother⟩
  · exact .inr ⟨rfl, rfl, rfl⟩

/-- A chunk row refers to the new generation exactly if it was written for it. -/
theorem Replaced.mem_chunks
    {rows : List (CodeChunk × Embedding)}
    (h : Replaced db db' request id rows)
    (hreferences : ∀ row ∈ db.chunks, ∃ g ∈ db.generations.rows, g.id = row.generationId)
    {row : ChunkRow} (hrow : row ∈ db'.chunks) :
    (row ∈ db.chunks ∧ row.generationId ≠ id) ∨
      (row.generationId = id ∧ row.chunk ∈ rows.map Prod.fst) := by
  rw [h.chunks, List.mem_append, List.mem_map] at hrow
  rcases hrow with hold | ⟨p, hp, rfl⟩
  · obtain ⟨g, hg, hid⟩ := hreferences row hold
    exact .inl ⟨hold, fun heq => h.fresh g hg (hid.trans heq)⟩
  · exact .inr ⟨rfl, List.mem_map_of_mem hp⟩

/-- What the replaced tables serve: the new chunks to the repository, the old ones to others. -/
theorem Replaced.serves_iff
    {rows : List (CodeChunk × Embedding)}
    (h : Replaced db db' request id rows)
    (hreferences : ∀ row ∈ db.chunks, ∃ g ∈ db.generations.rows, g.id = row.generationId)
    (repository : Int × Int) (chunk : CodeChunk) :
    db'.Serves repository chunk ↔
      if request.repository = repository then chunk ∈ rows.map Prod.fst
      else db.Serves repository chunk := by
  constructor
  · rintro ⟨row, hrow, rfl, g, hg, hid, rfl, hactive⟩
    rcases h.active hg hactive with ⟨hold, hother⟩ | ⟨hnew, hsame, _⟩
    · rw [if_neg (fun heq => hother heq.symm)]
      rcases h.mem_chunks hreferences hrow with ⟨hrow', _⟩ | ⟨hrowId, _⟩
      · exact ⟨row, hrow', rfl, g, hold, hid, rfl, hactive⟩
      · exact absurd (hid.trans hrowId) (h.fresh g hold)
    · rw [if_pos hsame.symm]
      rcases h.mem_chunks hreferences hrow with ⟨_, hrowId⟩ | ⟨_, hchunk⟩
      · exact absurd (hid.symm.trans hnew) hrowId
      · exact hchunk
  · intro hserves
    split at hserves
    · next hrepository =>
        obtain ⟨p, hp, rfl⟩ := List.mem_map.mp hserves
        refine ⟨⟨id, p.1, p.2⟩, ?_, rfl, { request.generation id with state := .active },
          h.mem_generations.mpr (.inr rfl), rfl, hrepository, rfl⟩
        rw [h.chunks]
        exact List.mem_append_right _ (List.mem_map.mpr ⟨p, hp, rfl⟩)
    · next hrepository =>
        obtain ⟨row, hrow, hchunk, g, hg, hid, hof, hactive⟩ := hserves
        have hother : g.repository ≠ request.repository := by
          intro heq
          exact hrepository (heq.symm.trans hof)
        refine ⟨row, ?_, hchunk, g, h.mem_generations.mpr (.inl ⟨g, hg, ?_⟩), hid, hof, hactive⟩
        · rw [h.chunks]
          exact List.mem_append_left _ hrow
        · exact (retiredRow_of_other hother).symm

/-- The tables stay consistent when a generation with the chunks of a request lands. -/
theorem Replaced.consistent
    {rows : List (CodeChunk × Embedding)}
    (h : Replaced db db' request id rows)
    (hrows : rows.map Prod.fst = request.chunks interpreter)
    (hdb : db.Consistent interpreter landed) :
    db'.Consistent interpreter (landed ++ [request]) := by
  refine ⟨?_, ?_, ?_⟩
  · intro g hg g' hg' hactive hactive' hsame
    rcases h.active hg hactive with ⟨hold, hother⟩ | ⟨_, hof, hnew⟩
    · rcases h.active hg' hactive' with ⟨hold', _⟩ | ⟨_, hof', _⟩
      · exact hdb.oneActive g hold g' hold' hactive hactive' hsame
      · exact absurd (hsame.trans hof') hother
    · rcases h.active hg' hactive' with ⟨_, hother'⟩ | ⟨_, _, hnew'⟩
      · exact absurd (hsame.symm.trans hof) hother'
      · rw [hnew, hnew']
  · intro repository chunk
    rw [h.serves_iff hdb.references, lastIndexed_concat, hrows, hdb.serves]
    split
    · rfl
    · rfl
  · intro row hrow
    rcases h.mem_chunks hdb.references hrow with ⟨hold, _⟩ | ⟨hid, _⟩
    · obtain ⟨g, hg, hgid⟩ := hdb.references row hold
      exact ⟨retiredRow request id g, h.mem_generations.mpr (.inl ⟨g, hg, rfl⟩),
        by rw [retiredRow_id, hgid]⟩
    · exact ⟨_, h.mem_generations.mpr (.inr rfl), hid.symm⟩

end Replace

/-! ## One call -/

section OneCall

variable (interpreter : Interpreter) (limits : RowLimits) (turns : Nat → IndexTurn)
variable (request : IndexRequest)

/-- The invariant of the calls. -/
def IndexState.Sound (s : IndexState) : Prop :=
  s.committed.Consistent interpreter s.landed

/-- What the transaction holds while the chunks of a new generation are written. -/
structure Filling (id : Uuid) (rows : List (CodeChunk × Embedding)) (s : IndexState) : Prop where
  sound : s.Sound interpreter
  fresh : ∀ g ∈ s.committed.generations.rows, g.id ≠ id
  generations : s.working.generations.rows =
    s.committed.generations.rows ++ [request.generation id]
  chunks : s.working.chunks = s.committed.chunks ++ rows.map (fun p => ⟨id, p.1, p.2⟩)

/-- What it holds after the retirement. -/
structure Retired (id : Uuid) (rows : List (CodeChunk × Embedding)) (s : IndexState) : Prop where
  sound : s.Sound interpreter
  fresh : ∀ g ∈ s.committed.generations.rows, g.id ≠ id
  generations : s.working.generations.rows =
    s.committed.generations.rows.map (retiredRow request id) ++ [request.generation id]
  chunks : s.working.chunks = s.committed.chunks ++ rows.map (fun p => ⟨id, p.1, p.2⟩)

/-- The judgement: a commit finds tables that are consistent with the request landed. -/
abbrev SafeIndex
    {α : Type} (p : IndexProgram α) (Q : α → IndexState → Prop) (s : IndexState) : Prop :=
  Program.Safe (request.answer limits turns) (fun _ _ => True)
    (fun s op => s.Sound interpreter ∧
      (op = .commit → s.working.Consistent interpreter (s.landed ++ [request])))
    p Q (fun _ s' => s'.Sound interpreter) s

variable {interpreter limits turns request}

/-- A statement leaves the committed tables alone. -/
theorem statement_committed
    (s : IndexState) (turn : IndexTurn)
    (write : RetrievalDatabase → Except IndexError RetrievalDatabase) :
    (s.statement turn write).2.committed = s.committed ∧
      (s.statement turn write).2.landed = s.landed := by
  unfold IndexState.statement
  split
  · exact ⟨rfl, rfl⟩
  · split
    · exact ⟨rfl, rfl⟩
    · exact ⟨rfl, rfl⟩

/-- A statement that returned has written what it computes. -/
theorem statement_ok
    {s : IndexState} {turn : IndexTurn} {value : Unit}
    {write : RetrievalDatabase → Except IndexError RetrievalDatabase}
    (h : (s.statement turn write).1 = .ok value) :
    write s.working = .ok (s.statement turn write).2.working := by
  unfold IndexState.statement at h ⊢
  split at h
  · cases h
  · next hraises =>
      cases hwrite : write s.working with
      | ok db => simp only
      | error error =>
          rw [hwrite] at h
          cases h

/-- A call that is no commit leaves the committed tables alone. -/
theorem answer_committed
    (limits : RowLimits) (turns : Nat → IndexTurn) (request : IndexRequest)
    (op : IndexOp) (hop : op ≠ .commit) (s : IndexState) :
    (request.answer limits turns op s).2.committed = s.committed ∧
      (request.answer limits turns op s).2.landed = s.landed := by
  cases op with
  | commit => exact absurd rfl hop
  | insertGeneration => exact statement_committed ..
  | insertChunk generationId chunk vector => exact statement_committed ..
  | retire generationId => exact statement_committed ..
  | activate generationId => exact statement_committed ..
  | _ => exact ⟨rfl, rfl⟩

theorem commit_sound
    {s : IndexState} (turn : IndexTurn)
    (hsound : s.Sound interpreter)
    (hworking : s.working.Consistent interpreter (s.landed ++ [request])) :
    (s.commit turn request).2.Sound interpreter := by
  unfold IndexState.commit
  split
  · exact hsound
  · exact hworking

theorem sound_answer
    {op : IndexOp} {s : IndexState}
    (hsound : s.Sound interpreter)
    (hcommit : op = .commit → s.working.Consistent interpreter (s.landed ++ [request])) :
    (request.answer limits turns op s).2.Sound interpreter := by
  by_cases hop : op = .commit
  · subst hop
    have hticked : s.tick.Sound interpreter := hsound
    exact commit_sound (turns s.clock) hticked (hcommit rfl)
  · unfold IndexState.Sound
    have hcommitted := answer_committed limits turns request op hop s
    rw [hcommitted.1, hcommitted.2]
    exact hsound

/-- A call, given what its answer leaves behind. -/
theorem safe_callIndex
    {op : IndexOp} {Q : op.Value → IndexState → Prop} {s : IndexState}
    (hsound : s.Sound interpreter)
    (hcommit : op = .commit → s.working.Consistent interpreter (s.landed ++ [request]))
    (hQ : ∀ value, (request.answer limits turns op s).1 = .ok value →
      (request.answer limits turns op s).2.Sound interpreter →
        Q value (request.answer limits turns op s).2) :
    SafeIndex interpreter limits turns request (callIndex op) Q s := by
  have hafter : (request.answer limits turns op s).2.Sound interpreter :=
    sound_answer hsound hcommit
  unfold callIndex SafeIndex Program.perform
  rw [Program.bind_eq]
  refine ⟨⟨hsound, hcommit⟩, fun _ => ?_⟩
  cases hanswer : (request.answer limits turns op s).1 with
  | ok value => exact hQ value hanswer hafter
  | error e => exact hafter

/-! ## The statements -/

theorem insertGeneration_ok
    {db db' : RetrievalDatabase} {row : EmbeddingGeneration}
    (h : db.insertGeneration row = .ok db') :
    (∀ g ∈ db.generations.rows, g.id ≠ row.id) ∧
      db'.generations.rows = db.generations.rows ++ [row] ∧ db'.chunks = db.chunks := by
  unfold RetrievalDatabase.insertGeneration at h
  split at h
  · split at h
    · cases h
    · next generations hinsert =>
        obtain ⟨hfree, hrows⟩ := Table.insert?_eq_some hinsert
        rw [Table.find?_eq_none_iff] at hfree
        rw [← Except.ok.inj h]
        exact ⟨hfree, hrows, rfl⟩
  · cases h

theorem answer_insertGeneration
    {s : IndexState} {id : Uuid}
    (h : (request.answer limits turns .insertGeneration s).1 = .ok id) :
    (∀ g ∈ s.working.generations.rows, g.id ≠ id) ∧
      (request.answer limits turns .insertGeneration s).2.working.generations.rows =
        s.working.generations.rows ++ [request.generation id] ∧
      (request.answer limits turns .insertGeneration s).2.working.chunks = s.working.chunks := by
  simp only [IndexRequest.answer] at h ⊢
  cases hwritten : (s.tick.statement (turns s.clock)
      (fun db => db.insertGeneration (request.generation (turns s.clock).newId))).1 with
  | error error =>
      rw [hwritten] at h
      cases h
  | ok value =>
      rw [hwritten] at h
      cases h
      exact insertGeneration_ok (statement_ok hwritten)

theorem insertChunk_ok
    {db db' : RetrievalDatabase} {row : ChunkRow}
    (h : db.insertChunk limits row = .ok db') :
    (row.chunk.encodable = true ∧ limits.accepts row.chunk row.embedding = true) ∧
      db' = { db with chunks := db.chunks ++ [row] } := by
  unfold RetrievalDatabase.insertChunk at h
  split at h
  · cases h
  · next hencodable =>
      split at h
      · cases h
      · split at h
        · next hrow => exact ⟨⟨not_not.mp hencodable, hrow.1⟩, (Except.ok.inj h).symm⟩
        · cases h

theorem answer_insertChunk
    {s : IndexState} {id : Uuid} {chunk : CodeChunk} {vector : Embedding} {value : Unit}
    (h : (request.answer limits turns (.insertChunk id chunk vector) s).1 = .ok value) :
    (request.answer limits turns (.insertChunk id chunk vector) s).2.working =
      { s.working with chunks := s.working.chunks ++ [⟨id, chunk, vector⟩] } := by
  exact (insertChunk_ok (statement_ok h)).2

theorem answer_retire
    {s : IndexState} {id : Uuid} {value : Unit}
    (h : (request.answer limits turns (.retire id) s).1 = .ok value) :
    (request.answer limits turns (.retire id) s).2.working =
      s.working.retire request.repository id := by
  have hdb : Except.ok (s.tick.working.retire request.repository id) = _ := statement_ok h
  exact (Except.ok.inj hdb).symm

theorem activate_ok
    {db db' : RetrievalDatabase} {id : Uuid}
    (h : db.activate id = .ok db') :
    db'.generations.rows = db.generations.rows.map (fun g =>
        if g.id = id ∧ g.state = .building then { g with state := .active } else g) ∧
      db'.chunks = db.chunks := by
  simp only [RetrievalDatabase.activate] at h
  split at h
  · cases h
  · rw [← Except.ok.inj h]
    simp only [Table.rows_updateWhere, decide_eq_true_eq, and_self]

theorem answer_activate
    {s : IndexState} {id : Uuid} {value : Unit}
    (h : (request.answer limits turns (.activate id) s).1 = .ok value) :
    (request.answer limits turns (.activate id) s).2.working.generations.rows =
        s.working.generations.rows.map (fun g =>
          if g.id = id ∧ g.state = .building then { g with state := .active } else g) ∧
      (request.answer limits turns (.activate id) s).2.working.chunks = s.working.chunks :=
  activate_ok (statement_ok h)

/-! ## The program -/

/-- Writing one more chunk. -/
theorem safe_insertChunk
    {id : Uuid} {rows : List (CodeChunk × Embedding)} {p : CodeChunk × Embedding} {s : IndexState}
    (h : Filling interpreter request id rows s) :
    SafeIndex interpreter limits turns request (callIndex (.insertChunk id p.1 p.2))
      (fun _ s' => Filling interpreter request id (rows ++ [p]) s') s := by
  refine safe_callIndex h.sound nofun ?_
  intro value hvalue hsound
  have hworking := answer_insertChunk hvalue
  have hcommitted := answer_committed limits turns request (.insertChunk id p.1 p.2) nofun s
  refine ⟨hsound, ?_, ?_, ?_⟩
  · rw [hcommitted.1]
    exact h.fresh
  · rw [hworking, hcommitted.1]
    exact h.generations
  · rw [hworking, hcommitted.1]
    simp [h.chunks]

/-- The transaction has written nothing yet. -/
structure Opened (interpreter : Interpreter) (s : IndexState) : Prop where
  sound : s.Sound interpreter
  clean : s.working = s.committed

theorem safe_insertGeneration
    {s : IndexState}
    (h : Opened interpreter s) :
    SafeIndex interpreter limits turns request (callIndex .insertGeneration)
      (fun id s' => Filling interpreter request id [] s') s := by
  refine safe_callIndex h.sound nofun ?_
  intro id hid hsound
  obtain ⟨hfresh, hrows, hchunks⟩ := answer_insertGeneration hid
  have hcommitted := answer_committed limits turns request .insertGeneration nofun s
  rw [h.clean] at hfresh hrows hchunks
  refine ⟨hsound, ?_, ?_, ?_⟩
  · rw [hcommitted.1]
    exact hfresh
  · rw [hcommitted.1]
    exact hrows
  · rw [hcommitted.1, hchunks]
    simp

/-- The loop over the chunks. -/
theorem safe_insertChunks
    {id : Uuid} {rows : List (CodeChunk × Embedding)} {s : IndexState}
    (h : Filling interpreter request id [] s) :
    SafeIndex interpreter limits turns request
      (Program.forEach rows (fun p => callIndex (.insertChunk id p.1 p.2)))
      (fun _ s' => Filling interpreter request id rows s') s := by
  refine (Program.safe_forEach_rest
    (I := fun rest s' => ∃ written, written ++ rest = rows ∧
      Filling interpreter request id written s') ?_ ⟨[], rfl, h⟩).mono ?_ (fun _ _ h => h)
  · rintro p rest s' ⟨written, hrows, hfilling⟩
    refine (safe_insertChunk hfilling).mono ?_ (fun _ _ h => h)
    intro _ s'' hfilling'
    exact ⟨written ++ [p], by rw [← hrows, List.append_assoc]; rfl, hfilling'⟩
  · rintro _ s' ⟨written, hrows, hfilling⟩
    rw [List.append_nil] at hrows
    exact hrows ▸ hfilling

/-- The retirement. -/
theorem safe_retire
    {id : Uuid} {rows : List (CodeChunk × Embedding)} {s : IndexState}
    (h : Filling interpreter request id rows s) :
    SafeIndex interpreter limits turns request (callIndex (.retire id))
      (fun _ s' => Retired interpreter request id rows s') s := by
  refine safe_callIndex h.sound nofun ?_
  intro value hvalue hsound
  have hworking := answer_retire hvalue
  have hcommitted := answer_committed limits turns request (.retire id) nofun s
  refine ⟨hsound, ?_, ?_, ?_⟩
  · rw [hcommitted.1]
    exact h.fresh
  · rw [hworking, hcommitted.1]
    simp only [RetrievalDatabase.retire, Table.rows_updateWhere, decide_eq_true_eq,
      h.generations, List.map_append, List.map_cons, List.map_nil]
    congr 2
    exact if_neg (fun hall => hall.2.2 rfl)
  · rw [hworking, hcommitted.1]
    exact h.chunks

/-- The activation is of the new generation only. -/
theorem map_activated
    {id : Uuid} {rows : List EmbeddingGeneration}
    (hfresh : ∀ g ∈ rows, g.id ≠ id) :
    (rows.map (retiredRow request id) ++ [request.generation id]).map (fun g =>
        if g.id = id ∧ g.state = .building then { g with state := .active } else g) =
      rows.map (retiredRow request id) ++ [{ request.generation id with state := .active }] := by
  rw [List.map_append, List.map_map]
  congr 1
  · apply List.map_congr_left
    intro g hg
    have hother : (retiredRow request id g).id ≠ id := by
      rw [retiredRow_id]
      exact hfresh g hg
    rw [Function.comp, if_neg (fun hall => hother hall.1)]
  · simp [IndexRequest.generation]

/-- The activation, after which the new generation is in the place of the earlier one. -/
theorem safe_activate
    {id : Uuid} {rows : List (CodeChunk × Embedding)} {s : IndexState}
    (h : Retired interpreter request id rows s) :
    SafeIndex interpreter limits turns request (callIndex (.activate id))
      (fun _ s' => s'.Sound interpreter ∧ Replaced s'.committed s'.working request id rows) s := by
  refine safe_callIndex h.sound nofun ?_
  intro value hvalue hsound
  obtain ⟨hgenerations, hchunks⟩ := answer_activate hvalue
  have hcommitted := answer_committed limits turns request (.activate id) nofun s
  refine ⟨hsound, ?_⟩
  rw [hcommitted.1]
  refine ⟨h.fresh, ?_, ?_⟩
  · rw [hgenerations, h.generations, map_activated h.fresh]
  · rw [hchunks, h.chunks]

theorem safe_writeGeneration
    {chunks : List CodeChunk} {vectors : List Embedding} {s : IndexState}
    (hchunks : chunks = request.chunks interpreter)
    (h : Opened interpreter s) :
    SafeIndex interpreter limits turns request (writeGeneration chunks vectors)
      (fun _ s' => s'.Sound interpreter) s := by
  unfold writeGeneration SafeIndex
  rw [Program.bind_eq, Program.safe_bind]
  refine (safe_insertGeneration h).mono ?_ (fun _ _ h => h)
  intro id s₁ hfilling
  rw [Program.bind_eq, Program.safe_bind]
  refine (safe_insertChunks hfilling).mono ?_ (fun _ _ h => h)
  intro _ s₂ hfilled
  rw [Program.bind_eq, Program.safe_bind]
  unfold zipEnds
  split
  · next hlength =>
      have hrows : (chunks.zip vectors).map Prod.fst = request.chunks interpreter := by
        rw [List.map_fst_zip (le_of_eq hlength), hchunks]
      refine Program.safe_ret.mpr ?_
      rw [Program.bind_eq, Program.safe_bind]
      refine (safe_retire hfilled).mono ?_ (fun _ _ h => h)
      intro _ s₃ hretired
      rw [Program.bind_eq, Program.safe_bind]
      refine (safe_activate hretired).mono ?_ (fun _ _ h => h)
      rintro _ s₄ ⟨hsound, hreplaced⟩
      rw [Program.bind_eq, Program.safe_bind]
      exact safe_callIndex hsound (fun _ => hreplaced.consistent hrows hsound)
        (fun _ _ hafter => hafter)
  · exact hfilled.sound

/-- A call that neither writes nor ends the transaction. -/
theorem opened_answer
    {op : IndexOp} {s : IndexState}
    (hop : (request.answer limits turns op s).2 = s.tick)
    (h : Opened interpreter s) :
    Opened interpreter (request.answer limits turns op s).2 := by
  rw [hop]
  exact ⟨h.sound, h.clean⟩

theorem readTree_ok
    {s : IndexState} {tree : SourceTree}
    (h : (request.answer limits turns .readTree s).1 = .ok tree) :
    tree = request.tree := by
  have houtcome : (turns s.clock).outcome request.tree = .ok tree := h
  unfold IndexTurn.outcome at houtcome
  split at houtcome
  · cases houtcome
  · exact (Except.ok.inj houtcome).symm

theorem safe_embedTexts
    {provider : EmbeddingProvider} {texts : List PyStr} {s : IndexState}
    (h : Opened interpreter s) :
    SafeIndex interpreter limits turns request (embedTexts provider texts)
      (fun _ s' => Opened interpreter s') s := by
  unfold embedTexts SafeIndex
  split
  · exact h.sound
  · split
    · exact h
    · rw [Program.bind_eq, Program.safe_bind]
      refine safe_callIndex h.sound nofun ?_
      intro vectors _ _
      have hopened : Opened interpreter (request.answer limits turns (.embed texts) s).2 :=
        opened_answer rfl h
      split
      · exact hopened.sound
      · split
        · exact hopened
        · exact hopened.sound

theorem safe_indexRepository
    {s : IndexState}
    (h : Opened interpreter s) :
    SafeIndex interpreter limits turns request (indexRepository interpreter request)
      (fun _ s' => s'.Sound interpreter) s := by
  unfold indexRepository SafeIndex
  rw [Program.bind_eq, Program.safe_bind]
  refine safe_callIndex h.sound nofun ?_
  intro _ _ _
  have h₁ : Opened interpreter
      (request.answer limits turns .assertV1EmbeddingContract s).2 := opened_answer rfl h
  generalize (request.answer limits turns .assertV1EmbeddingContract s).2 = s₁ at h₁
  rw [Program.bind_eq, Program.safe_bind]
  refine safe_callIndex h₁.sound nofun ?_
  intro tree htree _
  have h₂ : Opened interpreter (request.answer limits turns .readTree s₁).2 :=
    opened_answer rfl h₁
  have htree' : tree = request.tree := readTree_ok htree
  subst htree'
  generalize (request.answer limits turns .readTree s₁).2 = s₂ at h₂
  rw [Program.bind_eq, Program.safe_bind, Program.safe_ofExcept]
  cases hchunks : chunkTree interpreter request.leftOut request.tree with
  | error error => exact h₂.sound
  | ok chunks =>
      simp only [Except.mapError]
      rw [Program.bind_eq, Program.safe_bind]
      refine (safe_embedTexts h₂).mono ?_ (fun _ _ h => h)
      intro vectors s₃ h₃
      rw [Program.bind_eq, Program.safe_bind, Program.safe_catching]
      have hrequest : chunks = request.chunks interpreter := by
        unfold IndexRequest.chunks
        rw [hchunks]
        rfl
      refine (safe_writeGeneration hrequest h₃).mono ?_ ?_
      · intro id s₄ hsound
        exact hsound
      · intro error s₄ hsound
        rw [Program.bind_eq, Program.safe_bind]
        exact safe_callIndex hsound nofun (fun _ _ hafter => hafter)

/-! ## Which calls land -/

/-- The judgement: nothing has landed at any call, and the call lands exactly if it returns. -/
abbrev Lands
    (limits : RowLimits) (turns : Nat → IndexTurn) (request : IndexRequest)
    (landed : List IndexRequest)
    {α : Type} (p : IndexProgram α) (Q : α → IndexState → Prop) (s : IndexState) : Prop :=
  Program.Safe (request.answer limits turns) (fun _ _ => True) (fun s _ => s.landed = landed)
    p Q (fun _ s' => s'.landed = landed) s

theorem lands_of_only
    {α : Type} {landed : List IndexRequest} {p : IndexProgram α} {s : IndexState}
    (h : Program.Only (fun op => op ≠ .commit) p)
    (hs : s.landed = landed) :
    Lands limits turns request landed p (fun _ s' => s'.landed = landed) s := by
  refine h.safe ?_ hs
  intro s' op hop hs'
  have hcommitted := answer_committed limits turns request op hop s'
  exact ⟨hs', fun _ => hcommitted.2.trans hs'⟩

theorem only_callIndex
    {op : IndexOp} {P : IndexOp → Prop}
    (h : P op) :
    Program.Only P (callIndex op) :=
  Program.only_bind (Program.only_perform h) Program.only_ofExcept

theorem only_zipEnds
    (chunks : List CodeChunk) (vectors : List Embedding) (P : IndexOp → Prop) :
    Program.Only P (zipEnds chunks vectors) := by
  unfold zipEnds
  split
  · trivial
  · trivial

/-- A part without a commit, and what follows it. -/
theorem lands_bind
    {α β : Type} {landed : List IndexRequest} {p : IndexProgram α} {f : α → IndexProgram β}
    {Q : β → IndexState → Prop} {s : IndexState}
    (hp : Program.Only (fun op => op ≠ .commit) p)
    (hs : s.landed = landed)
    (hf : ∀ a s', s'.landed = landed → Lands limits turns request landed (f a) Q s') :
    Lands limits turns request landed (p.bind f) Q s := by
  refine Program.safe_bind.mpr ((lands_of_only hp hs).mono ?_ (fun _ _ h => h))
  intro a s' hs'
  exact hf a s' hs'

theorem only_embedTexts
    (provider : EmbeddingProvider) (texts : List PyStr) :
    Program.Only (fun op => op ≠ .commit) (embedTexts provider texts) := by
  unfold embedTexts
  split
  · trivial
  · split
    · trivial
    · refine Program.only_bind (only_callIndex nofun) (fun vectors => ?_)
      split
      · trivial
      · split
        · trivial
        · trivial

theorem lands_commit
    {landed : List IndexRequest} {s : IndexState}
    (hs : s.landed = landed) :
    Lands limits turns request landed (callIndex .commit)
      (fun _ s' => s'.landed = landed ++ [request]) s := by
  unfold callIndex Lands Program.perform
  rw [Program.bind_eq]
  refine ⟨hs, fun _ => ?_⟩
  simp only [IndexRequest.answer, IndexState.commit, IndexState.tick]
  cases (turns s.clock).raises with
  | none => exact congrArg (· ++ [request]) hs
  | some error => exact hs

theorem lands_writeGeneration
    {landed : List IndexRequest} {chunks : List CodeChunk} {vectors : List Embedding}
    {s : IndexState}
    (hs : s.landed = landed) :
    Lands limits turns request landed (writeGeneration chunks vectors)
      (fun _ s' => s'.landed = landed ++ [request]) s := by
  unfold writeGeneration
  refine lands_bind (only_callIndex (by nofun)) hs ?_
  intro id s₁ h₁
  refine lands_bind (Program.only_forEach (fun p _ => only_callIndex (by nofun))) h₁ ?_
  intro _ s₂ h₂
  refine lands_bind (only_zipEnds chunks vectors _) h₂ ?_
  intro _ s₃ h₃
  refine lands_bind (only_callIndex (by nofun)) h₃ ?_
  intro _ s₄ h₄
  refine lands_bind (only_callIndex (by nofun)) h₄ ?_
  intro _ s₅ h₅
  exact Program.safe_bind.mpr (lands_commit h₅)

theorem lands_indexRepository
    (interpreter : Interpreter) {landed : List IndexRequest} {s : IndexState}
    (hs : s.landed = landed) :
    Lands limits turns request landed (indexRepository interpreter request)
      (fun _ s' => s'.landed = landed ++ [request]) s := by
  unfold indexRepository
  refine lands_bind (only_callIndex (by nofun)) hs ?_
  intro _ s₁ h₁
  refine lands_bind (only_callIndex (by nofun)) h₁ ?_
  intro tree s₂ h₂
  refine lands_bind (Program.only_ofExcept _) h₂ ?_
  intro chunks s₃ h₃
  refine lands_bind (only_embedTexts _ _) h₃ ?_
  intro vectors s₄ h₄
  refine Program.safe_bind.mpr (Program.safe_catching.mpr ((lands_writeGeneration h₄).mono ?_ ?_))
  · intro id s₅ h₅
    exact h₅
  · intro error s₅ h₅
    refine lands_bind (only_callIndex (by nofun)) h₅ ?_
    intro _ s₆ h₆
    exact h₆

end OneCall

/-! ## Runs -/

/-- The call returns before it is killed. -/
def IndexCall.succeeds (interpreter : Interpreter) (limits : RowLimits)
    (turns : Nat → IndexTurn) (s : IndexState) (c : IndexCall) : Bool :=
  let answer := c.request.answer limits turns
  let program := indexRepository interpreter c.request
  (Program.run answer program s).1.isOk &&
    decide ((Program.steps answer program s).length ≤ c.killedAfter)

/-- The requests of the successful calls, in their order. -/
def succeeded (interpreter : Interpreter) (limits : RowLimits) (turns : Nat → IndexTurn) :
    IndexState → List IndexCall → List IndexRequest
  | _, [] => []
  | s, c :: rest =>
      let later := succeeded interpreter limits turns (indexStep interpreter limits turns s c) rest
      if c.succeeds interpreter limits turns s then c.request :: later else later

section Runs

variable {interpreter : Interpreter} {limits : RowLimits} {turns : Nat → IndexTurn}

/-- A call lands exactly if it succeeds. -/
theorem landed_indexStep
    (s : IndexState) (c : IndexCall) :
    (indexStep interpreter limits turns s c).landed =
      if c.succeeds interpreter limits turns s then s.landed ++ [c.request] else s.landed := by
  have hlands : Lands limits turns c.request s.landed (indexRepository interpreter c.request) _ s :=
    lands_indexRepository interpreter rfl
  have houtcome := hlands.outcome (fun _ _ => trivial)
  unfold indexStep
  by_cases hkilled : (Program.steps (c.request.answer limits turns)
      (indexRepository interpreter c.request) s).length ≤ c.killedAfter
  · have hsucceeds : c.succeeds interpreter limits turns s =
        (Program.run (c.request.answer limits turns)
          (indexRepository interpreter c.request) s).1.isOk := by
      simp [IndexCall.succeeds, hkilled]
    rw [hsucceeds, Program.killed_of_le hkilled]
    split at houtcome
    · next generation s' hrun =>
        rw [hrun]
        exact houtcome
    · next error s' hrun =>
        rw [hrun]
        exact houtcome
  · have hsucceeds : c.succeeds interpreter limits turns s = false := by
      simp [IndexCall.succeeds, hkilled]
    obtain ⟨x, hx, hstate⟩ := Program.killed_of_lt (Nat.lt_of_not_le hkilled)
    rw [hsucceeds, hstate]
    exact hlands.guaranteed_of_mem hx

theorem landed_exec
    (calls : List IndexCall) (s : IndexState) :
    (exec (indexStep interpreter limits turns) s calls).landed =
      s.landed ++ succeeded interpreter limits turns s calls := by
  induction calls generalizing s with
  | nil => simp [succeeded]
  | cons c rest ih =>
      rw [exec_cons, ih, landed_indexStep, succeeded]
      split
      · rw [List.append_assoc]
        rfl
      · rfl

/-- What holds between the calls. -/
theorem opened_indexStep
    {s : IndexState} (c : IndexCall)
    (h : Opened interpreter s) :
    Opened interpreter (indexStep interpreter limits turns s c) := by
  have hsafe : SafeIndex interpreter limits turns c.request
      (indexRepository interpreter c.request) _ s := safe_indexRepository h
  have hsound := hsafe.killed_of (I := fun s' => s'.Sound interpreter) c.killedAfter
    (fun _ _ => trivial) (fun _ _ hs => hs.1) (fun _ _ hs => hs) (fun _ _ hs => hs)
  exact ⟨hsound, rfl⟩

theorem opened_new :
    Opened interpreter .new := by
  refine ⟨⟨nofun, fun repository chunk => ?_, nofun⟩, rfl⟩
  constructor
  · rintro ⟨row, hrow, _⟩
    cases hrow
  · intro hchunk
    cases hchunk

theorem opened_indexedState
    (calls : List IndexCall) :
    Opened interpreter (indexedState interpreter limits turns calls) :=
  exec_preserves (fun _ c h => opened_indexStep c h) calls opened_new

/-- A repository has one active generation at most. -/
theorem activeGenerations_length
    {db : RetrievalDatabase} {landed : List IndexRequest}
    (h : db.Consistent interpreter landed) (repository : Int × Int) :
    (db.activeGenerations repository).length ≤ 1 := by
  unfold RetrievalDatabase.activeGenerations
  generalize hactive : db.generations.rows.filter
    (fun g => decide (g.repository = repository ∧ g.state = .active)) = active
  have hnodup : active.Nodup := by
    rw [← hactive]
    exact (List.Nodup.of_map _ db.generations.nodup).filter _
  have hsame : ∀ g ∈ active, ∀ g' ∈ active, g = g' := by
    intro g hg g' hg'
    simp only [← hactive, List.mem_filter, decide_eq_true_eq] at hg hg'
    exact h.oneActive g hg.1 g' hg'.1 hg.2.2 hg'.2.2 (hg.2.1.trans hg'.2.1.symm)
  match active with
  | [] => exact Nat.zero_le 1
  | [_] => exact le_refl 1
  | g :: g' :: rest =>
      have hne : g ≠ g' := by
        intro heq
        exact (List.nodup_cons.mp hnodup).1 (heq ▸ List.mem_cons_self)
      exact absurd (hsame g (by simp) g' (by simp)) hne

/--
After any calls, each of which may fail or be killed at any point: a repository has one
active generation at most, and a query selects the chunks of the tree of its last
successful call.
-/
theorem queries_see_last_complete_index
    (interpreter : Interpreter) (limits : RowLimits) (turns : Nat → IndexTurn)
    (calls : List IndexCall) (repository : Int × Int) :
    let db := (indexedState interpreter limits turns calls).committed
    (db.activeGenerations repository).length ≤ 1 ∧
      ∀ before chunk, chunk ∈ db.queryableChunks before repository ↔
        chunk ∈ lastIndexed interpreter (succeeded interpreter limits turns .new calls)
          repository := by
  have hopened : Opened interpreter (indexedState interpreter limits turns calls) :=
    opened_indexedState calls
  have hsound : RetrievalDatabase.Consistent interpreter _ _ := hopened.sound
  have hlanded : (indexedState interpreter limits turns calls).landed =
      [] ++ succeeded interpreter limits turns .new calls := landed_exec calls .new
  refine ⟨activeGenerations_length hsound repository, fun before chunk => ?_⟩
  rw [RetrievalDatabase.mem_queryableChunks, hsound.serves]
  exact iff_of_eq (congrArg (fun landed => chunk ∈ lastIndexed interpreter landed repository)
    hlanded)

end Runs

end Retrieval
end PrReviewer
