import PrReviewer.Retrieval.Generations
import PrReviewer.Retrieval.Identities

/-!
# Which trees can be indexed

With a connection and an embedder that do not fail, a call of `index_repository` activates
a generation with pairwise distinct identities exactly for the trees whose Python files
define no dotted name twice, within the bounds of the interpreter and of the type
`integer`, and whose chunks PostgreSQL can store.
-/

namespace PrReviewer
namespace Retrieval

open Lib

/-! ## The lines of a chunk -/

section Lines

variable {interpreter : Interpreter} {path : RelativePath} {lines : List PyStr}

/-- The lines of the chunk meet the constraints of its row. -/
def CodeChunk.LinesFit (chunk : CodeChunk) : Prop :=
  0 < chunk.startLine ∧ chunk.startLine ≤ chunk.endLine ∧ chunk.endLine < 2147483648

theorem accepts_iff
    {limits : RowLimits} {chunk : CodeChunk} {vector : Embedding} :
    limits.accepts chunk vector = true ↔
      (chunk.LinesFit ∧ limits.admitsChunk chunk = true) ∧ limits.admitsVector vector = true := by
  have hlines : (0 < chunk.startLine ∧ chunk.startLine ≤ chunk.endLine) ∧
      fitsInteger chunk.startLine = true ∧ fitsInteger chunk.endLine = true ↔
        chunk.LinesFit := by
    simp only [fitsInteger, CodeChunk.LinesFit, decide_eq_true_eq]
    omega
  simp only [RowLimits.accepts, Bool.and_eq_true, decide_eq_true_eq]
  rw [hlines]

/-- The least of some line numbers. -/
theorem foldl_min_bounds
    (decoratorLines : List Nat) {lineno : Nat}
    (hlineno : 0 < lineno) (hpos : ∀ line ∈ decoratorLines, 0 < line) :
    0 < decoratorLines.foldl min lineno ∧ decoratorLines.foldl min lineno ≤ lineno := by
  induction decoratorLines generalizing lineno with
  | nil => exact ⟨hlineno, le_refl _⟩
  | cons line rest ih =>
      rw [List.forall_mem_cons] at hpos
      obtain ⟨hfold, hle⟩ := ih (lt_min hlineno hpos.1) hpos.2
      exact ⟨hfold, le_trans hle (min_le_left _ _)⟩

theorem definitionChunk_linesFit
    (qualified : String) (node : Definition) :
    (definitionChunk interpreter path lines qualified node).LinesFit := by
  obtain ⟨hpos, hle⟩ := foldl_min_bounds node.decoratorLines node.lines_pos.1 node.lines_pos.2
  exact ⟨hpos, le_trans hle node.lines_le, node.lines_lt⟩

mutual

/-- What holds of the chunk of every definition holds of the chunks of a walk. -/
theorem walkPython_forall
    {P : CodeChunk → Prop}
    (hP : ∀ qualified node, P (definitionChunk interpreter path lines qualified node))
    (frames : Nat) (outer : String) :
    ∀ node chunks, walkPython interpreter path lines frames outer node = .ok chunks →
      ∀ chunk ∈ chunks, P chunk
  | .mk definition children => by
      intro chunks hwalk
      cases frames with
      | zero => cases hwalk
      | succ frames => exact walkChildren_forall hP frames outer children chunks hwalk

theorem walkChildren_forall
    {P : CodeChunk → Prop}
    (hP : ∀ qualified node, P (definitionChunk interpreter path lines qualified node))
    (frames : Nat) (outer : String) :
    ∀ children chunks, walkChildren interpreter path lines frames outer children = .ok chunks →
      ∀ chunk ∈ chunks, P chunk
  | [] => by
      intro chunks hwalk chunk hchunk
      cases hwalk
      cases hchunk
  | .mk (some node) children :: rest => by
      intro chunks hwalk chunk hchunk
      simp only [walkChildren] at hwalk
      obtain ⟨nested, hnested, hwalk⟩ := bind_eq_ok hwalk
      obtain ⟨later, hlater, hwalk⟩ := bind_eq_ok hwalk
      cases hwalk
      rcases List.mem_cons.mp hchunk with rfl | hchunk
      · exact hP _ node
      · rcases List.mem_append.mp hchunk with hmem | hmem
        · exact walkPython_forall hP frames _ (.mk (some node) children) nested hnested chunk hmem
        · exact walkChildren_forall hP frames outer rest later hlater chunk hmem
  | .mk none children :: rest => by
      intro chunks hwalk chunk hchunk
      simp only [walkChildren] at hwalk
      obtain ⟨nested, hnested, hwalk⟩ := bind_eq_ok hwalk
      obtain ⟨later, hlater, hwalk⟩ := bind_eq_ok hwalk
      cases hwalk
      rcases List.mem_append.mp hchunk with hmem | hmem
      · exact walkPython_forall hP frames outer (.mk none children) nested hnested chunk hmem
      · exact walkChildren_forall hP frames outer rest later hlater chunk hmem

end

/-- The windows lie within the lines, and the last one ends with them. -/
theorem windowsFrom_ends
    (interpreter : Interpreter) (path : RelativePath) (lines : List PyStr) (start : Nat) :
    (∀ chunk ∈ windowsFrom interpreter path lines start,
        chunk.startLine ≤ chunk.endLine ∧ chunk.endLine ≤ lines.length) ∧
      (start ≤ lines.length →
        ∃ chunk ∈ windowsFrom interpreter path lines start, chunk.endLine = lines.length) := by
  have hwindow : ∀ start, start ≤ lines.length →
      (windowChunk interpreter path lines start).startLine ≤
          (windowChunk interpreter path lines start).endLine ∧
        (windowChunk interpreter path lines start).endLine ≤ lines.length := by
    intro start hstart
    simp only [windowChunk, makeChunk, windowSizeLines]
    omega
  fun_induction windowsFrom interpreter path lines start with
  | case1 start hstart chunk hlast =>
      refine ⟨?_, fun _ => ⟨chunk, List.mem_singleton_self _, ?_⟩⟩
      · intro other hother
        rw [List.mem_singleton] at hother
        subst hother
        exact hwindow start hstart
      · exact le_antisymm (hwindow start hstart).2 hlast
  | case2 start hstart chunk hmore ih =>
      constructor
      · intro other hother
        rcases List.mem_cons.mp hother with rfl | hrest
        · exact hwindow start hstart
        · exact ih.1 other hrest
      · intro _
        -- The next window starts within the lines, since this one ends before their end.
        have hnext : start + (windowSizeLines - windowOverlapLines) ≤ lines.length := by
          have hend : chunk.endLine = min (start + windowSizeLines - 1) lines.length := rfl
          simp only [windowSizeLines, windowOverlapLines] at hend ⊢
          omega
        obtain ⟨last, hlast, hend⟩ := ih.2 hnext
        exact ⟨last, List.mem_cons_of_mem _ hlast, hend⟩
  | case3 start hstart =>
      exact ⟨fun chunk hchunk => absurd hchunk List.not_mem_nil, fun hle => absurd hle hstart⟩

theorem chunkWindows_linesFit_iff
    (source : String) :
    (∀ chunk ∈ chunkWindows interpreter path source, chunk.LinesFit) ↔
      (PyStr.ofString source).splitlines.length < 2147483648 := by
  simp only [chunkWindows]
  generalize (PyStr.ofString source).splitlines = lines
  cases lines with
  | nil => exact iff_of_true (fun chunk hchunk => absurd hchunk List.not_mem_nil) (by decide)
  | cons line rest =>
      have hends := windowsFrom_ends interpreter path (line :: rest) 1
      have hstarts := windowsFrom_starts interpreter path (line :: rest) 1
      constructor
      · intro hfit
        obtain ⟨last, hlast, hend⟩ := hends.2 (by simp)
        exact hend ▸ (hfit last hlast).2.2
      · intro hlength chunk hchunk
        obtain ⟨hstart, _⟩ := hstarts.1 chunk hchunk
        obtain ⟨hle, hend⟩ := hends.1 chunk hchunk
        exact ⟨hstart, hle, lt_of_le_of_lt hend hlength⟩

/-! ## The texts of a chunk -/

theorem text?_append
    {s t : PyStr} :
    (s ++ t).text?.isSome = true ↔ s.text?.isSome = true ∧ t.text?.isSome = true := by
  simp only [PyStr.text?_isSome_iff, PyStr.points_append, List.forall_mem_append]

theorem text?_isSome_ofString
    (text : String) :
    (PyStr.ofString text).text?.isSome = true := by
  rw [PyStr.text?_ofString]
  rfl

/-- Some points of a text that can be encoded can be encoded. -/
theorem text?_isSome_of_subset
    {s : PyStr} {points : List CodePoint}
    (hs : s.text?.isSome = true) (hsubset : points ⊆ s.points) :
    (PyStr.mk points).text?.isSome = true := by
  rw [PyStr.text?_isSome_iff] at hs ⊢
  exact fun c hc => hs c (hsubset hc)

theorem text?_sliceLines
    (source : String) (startLine endLine : Nat) :
    (sliceLines (PyStr.ofString source).splitlines startLine endLine).text?.isSome = true := by
  have hsource := PyStr.text?_isSome_iff.mp (text?_isSome_ofString source)
  rw [PyStr.text?_isSome_iff]
  intro c hc
  rcases mem_points_join hc with hsep | ⟨line, hline, hmem⟩
  · rw [List.mem_singleton.mp hsep]
    decide
  · have hlines := List.mem_of_mem_take (List.mem_of_mem_drop hline)
    exact hsource c (splitlines_subset hlines hmem)

/-- The language of a file can be encoded where its name can. -/
theorem text?_languageFor
    (hname : path.name.text?.isSome = true) :
    (languageFor interpreter path).text?.isSome = true := by
  have hsuffix : (pathSuffix path.name).text?.isSome = true := by
    simp only [pathSuffix]
    split
    · rw [PyStr.text?_isSome_iff] at hname ⊢
      intro c hc
      rcases List.mem_cons.mp hc with rfl | hc
      · decide
      · refine hname c (List.mem_reverse.mp ?_)
        exact (List.takeWhile_sublist _).subset (List.mem_reverse.mp hc)
    · rfl
  have hlower := interpreter.lower_text _ hsuffix
  simp only [languageFor]
  split
  · next language hlanguage =>
      have hlanguages : ∀ entry ∈ languageBySuffix, entry.2.text?.isSome = true := by
        decide +kernel
      exact hlanguages _ ((lookup_eq_some_iff_mem (by decide +kernel)).mp hlanguage)
  · split
    · simp only [removeDot]
      split
      · next c rest hpoints =>
          split
          · exact text?_isSome_of_subset hlower (by rw [hpoints]; exact List.subset_cons_self ..)
          · exact hlower
      · exact hlower
    · exact text?_isSome_ofString _

/-- A chunk of a file can be encoded where the path of the file can. -/
theorem encodable_iff
    {startLine endLine : Nat} {content identity : PyStr} {strategy : ChunkingStrategy}
    {symbolName : Option String}
    (hcontent : content.text?.isSome = true)
    (hidentity : identity.text?.isSome = true ↔ path.text.text?.isSome = true) :
    (makeChunk interpreter path startLine endLine content strategy identity
        symbolName).encodable = true ↔ path.text.text?.isSome = true := by
  have hname : path.text.text?.isSome = true → path.name.text?.isSome = true := by
    intro hpath
    exact text?_isSome_of_subset hpath (subset_points_join (by simp [RelativePath.parts]))
  simp only [CodeChunk.encodable, makeChunk, List.all_cons, List.all_nil, Bool.and_eq_true,
    Bool.and_true, hcontent, hidentity, true_and]
  exact ⟨fun h => h.1, fun h => ⟨h, text?_languageFor (hname h), h⟩⟩

/-! ## The chunks of a tree -/

/-- No file that is cut into windows has more lines than an `integer` counts. -/
def Countable (interpreter : Interpreter) (files : List (RelativePath × String)) : Prop :=
  ∀ file ∈ files, moduleOf interpreter file = none →
    (PyStr.ofString file.2).splitlines.length < 2147483648

theorem chunkSource_linesFit_iff
    {file : RelativePath × String} {chunks : List CodeChunk}
    (hparse : ∀ error, interpreter.parse file.2 ≠ .raises error)
    (hchunks : chunkSource interpreter file.1 file.2 = .ok chunks) :
    (∀ chunk ∈ chunks, chunk.LinesFit) ↔
      (moduleOf interpreter file = none →
        (PyStr.ofString file.2).splitlines.length < 2147483648) := by
  cases hmodule : moduleOf interpreter file with
  | none =>
      rw [chunkSource_of_no_module hmodule hparse] at hchunks
      cases hchunks
      simp only [forall_const]
      exact chunkWindows_linesFit_iff file.2
  | some module =>
      rw [chunkSource_of_module hmodule] at hchunks
      refine iff_of_true ?_ (fun h => nomatch h)
      exact walkPython_forall definitionChunk_linesFit _ _ module chunks hchunks

/-- The chunks of some files are those of each file. -/
theorem chunkFiles_forall_iff
    {P : CodeChunk → Prop}
    {files : List (RelativePath × String)} {chunks : List CodeChunk}
    (hchunks : chunkFiles interpreter files = .ok chunks) :
    (∀ chunk ∈ chunks, P chunk) ↔
      ∀ file ∈ files, ∀ own, chunkSource interpreter file.1 file.2 = .ok own →
        ∀ chunk ∈ own, P chunk := by
  induction files generalizing chunks with
  | nil =>
      cases hchunks
      exact iff_of_true nofun nofun
  | cons file rest ih =>
      simp only [chunkFiles] at hchunks
      obtain ⟨first, hfirst, hchunks⟩ := bind_eq_ok hchunks
      obtain ⟨later, hlater, hchunks⟩ := bind_eq_ok hchunks
      cases hchunks
      rw [List.forall_mem_append, List.forall_mem_cons, ih hlater, hfirst]
      simp only [Except.ok.injEq, forall_eq']

theorem chunkFiles_linesFit_iff
    {files : List (RelativePath × String)} {chunks : List CodeChunk}
    (hparse : Parses interpreter files)
    (hchunks : chunkFiles interpreter files = .ok chunks) :
    (∀ chunk ∈ chunks, chunk.LinesFit) ↔ Countable interpreter files := by
  induction files generalizing chunks with
  | nil =>
      cases hchunks
      exact iff_of_true nofun nofun
  | cons file rest ih =>
      simp only [chunkFiles] at hchunks
      obtain ⟨first, hfirst, hchunks⟩ := bind_eq_ok hchunks
      obtain ⟨later, hlater, hchunks⟩ := bind_eq_ok hchunks
      cases hchunks
      unfold Parses at hparse
      rw [List.forall_mem_cons] at hparse
      unfold Countable
      rw [List.forall_mem_append, List.forall_mem_cons,
        chunkSource_linesFit_iff hparse.1 hfirst, ih hparse.2 hlater]
      rfl

/-- The path of a file with a chunk can be encoded, and PostgreSQL has room for the chunk. -/
def Storable (interpreter : Interpreter) (limits : RowLimits)
    (files : List (RelativePath × String)) : Prop :=
  ∀ file ∈ files, ∀ chunks, chunkSource interpreter file.1 file.2 = .ok chunks →
    ∀ chunk ∈ chunks, file.1.text.text?.isSome = true ∧ limits.admitsChunk chunk = true

theorem chunkSource_encodable
    {source : String} {chunks : List CodeChunk}
    (hchunks : chunkSource interpreter path source = .ok chunks) :
    ∀ chunk ∈ chunks, (chunk.encodable = true ↔ path.text.text?.isSome = true) := by
  have hwindows : ∀ chunk ∈ chunkWindows interpreter path source,
      (chunk.encodable = true ↔ path.text.text?.isSome = true) := by
    intro chunk hchunk
    simp only [chunkWindows] at hchunk
    split at hchunk
    · cases hchunk
    · obtain ⟨_, hwindow⟩ :=
        (windowsFrom_starts interpreter path (PyStr.ofString source).splitlines 1).1 chunk hchunk
      rw [hwindow]
      refine encodable_iff (text?_sliceLines _ _ _) ?_
      simp only [text?_append, decimal, text?_isSome_ofString, and_true]
  unfold chunkSource at hchunks
  split at hchunks
  · split at hchunks
    · next module _ =>
        refine walkPython_forall (fun qualified node => ?_) _ _ module chunks hchunks
        refine encodable_iff (text?_sliceLines _ _ _) ?_
        simp only [text?_append, text?_isSome_ofString, and_true]
    · cases hchunks
      exact hwindows
    · cases hchunks
  · cases hchunks
    exact hwindows

theorem chunkFiles_storable_iff
    {limits : RowLimits} {files : List (RelativePath × String)} {chunks : List CodeChunk}
    (hchunks : chunkFiles interpreter files = .ok chunks) :
    (∀ chunk ∈ chunks, chunk.encodable = true ∧ limits.admitsChunk chunk = true) ↔
      Storable interpreter limits files := by
  rw [chunkFiles_forall_iff hchunks]
  refine forall₄_congr fun file _ own hown => forall₂_congr fun chunk hchunk => ?_
  rw [chunkSource_encodable hown chunk hchunk]

end Lines

/-! ## A call that nothing disturbs -/

/--
No call fails, the embedder answers one vector of the contract for each text, and the id
is new.
-/
structure Undisturbed (interpreter : Interpreter) (limits : RowLimits)
    (turns : Nat → IndexTurn) (request : IndexRequest) (db : RetrievalDatabase) : Prop where
  quiet : ∀ n, (turns n).raises = none
  contract : request.embedder.dimensions = v1EmbeddingDimensions
  embeds : ∀ chunks, chunkTree interpreter request.leftOut request.tree = .ok chunks →
    ∀ n, (turns n).vectors.length = chunks.length ∧
      ∀ vector ∈ (turns n).vectors,
        vector.length = v1EmbeddingDimensions ∧ limits.admitsVector vector = true
  fresh : ∀ n, ∀ g ∈ db.generations.rows, g.id ≠ (turns n).newId

/-- The ids of the repository are `integer`s, and PostgreSQL takes the other arguments. -/
def IndexRequest.Fits (request : IndexRequest) : Prop :=
  (fitsInteger request.installationId = true ∧ fitsInteger request.repositoryId = true) ∧
    fitsText request.commitSha = true ∧ fitsText request.embedder.modelName = true

theorem fits_generation_iff
    {request : IndexRequest} {id : Uuid} :
    (request.generation id).fits = true ↔ request.Fits := by
  simp only [EmbeddingGeneration.fits, IndexRequest.generation, IndexRequest.Fits,
    Bool.and_eq_true, and_assoc]

section Undisturbed

variable {interpreter : Interpreter} {limits : RowLimits} {turns : Nat → IndexTurn}
variable {request : IndexRequest}

/-- The judgement: the program returns. -/
abbrev Total
    (limits : RowLimits) (turns : Nat → IndexTurn) (request : IndexRequest)
    {α : Type} (p : IndexProgram α) (Q : α → IndexState → Prop) (s : IndexState) : Prop :=
  Program.Safe (request.answer limits turns) (fun _ _ => True) (fun _ _ => True)
    p Q (fun _ _ => False) s

theorem total_call
    {op : IndexOp} {Q : op.Value → IndexState → Prop} {s : IndexState} {value : op.Value}
    (hvalue : (request.answer limits turns op s).1 = .ok value)
    (hQ : Q value (request.answer limits turns op s).2) :
    Total limits turns request (callIndex op) Q s := by
  unfold callIndex Total Program.perform
  rw [Program.bind_eq]
  refine ⟨trivial, fun _ => ?_⟩
  rw [hvalue]
  exact hQ

/-- A call that is answered, with what is known of the state it leaves. -/
theorem total_callIndex
    {op : IndexOp} {Q Q' : op.Value → IndexState → Prop} {s : IndexState} {value : op.Value}
    (h : SafeIndex interpreter limits turns request (callIndex op) Q s)
    (hvalue : (request.answer limits turns op s).1 = .ok value)
    (hQ : ∀ s', Q value s' → Q' value s') :
    Total limits turns request (callIndex op) Q' s := by
  unfold callIndex SafeIndex Program.perform at h
  rw [Program.bind_eq] at h
  have hafter := h.2 trivial
  rw [hvalue] at hafter
  exact total_call hvalue (hQ _ hafter)

theorem statement_quiet
    {s : IndexState} {turn : IndexTurn} {db : RetrievalDatabase}
    {write : RetrievalDatabase → Except IndexError RetrievalDatabase}
    (hquiet : turn.raises = none)
    (hwrite : write s.working = .ok db) :
    (s.statement turn write).1 = .ok () := by
  unfold IndexState.statement
  rw [hquiet]
  simp only [hwrite]

theorem outcome_quiet
    {α : Type} {turn : IndexTurn} {value : α}
    (hquiet : turn.raises = none) :
    turn.outcome value = .ok value := by
  unfold IndexTurn.outcome
  rw [hquiet]

theorem insertGeneration_quiet
    {s : IndexState}
    (hu : Undisturbed interpreter limits turns request s.committed)
    (hfits : request.Fits) (h : Opened interpreter s) :
    (request.answer limits turns .insertGeneration s).1 = .ok (turns s.clock).newId := by
  have hwrite : ∃ db, s.tick.working.insertGeneration
      (request.generation (turns s.clock).newId) = .ok db := by
    have hclean : s.tick.working = s.committed := h.clean
    rw [hclean]
    unfold RetrievalDatabase.insertGeneration
    rw [if_pos (fits_generation_iff.mpr hfits)]
    split
    · next hnone =>
        obtain ⟨g, hg⟩ := Table.insert?_eq_none_iff.mp hnone
        exact absurd (Table.key_of_find? hg) (hu.fresh s.clock g (Table.mem_of_find? hg))
    · exact ⟨_, rfl⟩
  obtain ⟨db, hdb⟩ := hwrite
  simp only [IndexRequest.answer]
  rw [statement_quiet (hu.quiet s.clock) hdb]
  rfl

theorem insertChunk_quiet
    {id : Uuid} {rows : List (CodeChunk × Embedding)} {p : CodeChunk × Embedding} {s : IndexState}
    (hquiet : ∀ n, (turns n).raises = none)
    (hencodable : p.1.encodable = true) (haccepts : limits.accepts p.1 p.2 = true)
    (hnew : ∀ q ∈ rows, q.1.identity ≠ p.1.identity)
    (h : Filling interpreter request id rows s) :
    (request.answer limits turns (.insertChunk id p.1 p.2) s).1 = .ok () := by
  have hwrite : s.tick.working.insertChunk limits ⟨id, p.1, p.2⟩ =
      .ok { s.working with chunks := s.working.chunks ++ [⟨id, p.1, p.2⟩] } := ?_
  · exact statement_quiet (hquiet s.clock) hwrite
  unfold RetrievalDatabase.insertChunk
  rw [if_neg (not_not.mpr hencodable), if_neg, if_pos]
  · rfl
  · refine ⟨haccepts, request.generation id, ?_, rfl⟩
    have hmem : request.generation id ∈ s.working.generations.rows := by
      rw [h.generations]
      exact List.mem_append_right _ (List.mem_singleton_self _)
    exact hmem
  · rintro ⟨other, hother, hid, hidentity⟩
    have hmem : other ∈ s.working.chunks := hother
    rw [h.chunks] at hmem
    rcases List.mem_append.mp hmem with hold | hwritten
    · -- The rows of earlier generations refer to other ids.
      obtain ⟨g, hg, hgid⟩ := h.sound.references other hold
      exact h.fresh g hg (hgid.trans hid)
    · obtain ⟨q, hq, rfl⟩ := List.mem_map.mp hwritten
      exact hnew q hq hidentity

theorem activate_quiet
    {id : Uuid} {rows : List (CodeChunk × Embedding)} {s : IndexState}
    (hquiet : ∀ n, (turns n).raises = none)
    (hrows : rows.map Prod.fst = request.chunks interpreter)
    (h : Retired interpreter request id rows s) :
    (request.answer limits turns (.activate id) s).1 = .ok () := by
  let activated := s.working.generations.updateWhere
    (fun g => decide (g.id = id ∧ g.state = .building))
    (fun g => { g with state := .active }) (fun _ => rfl)
  have hreplaced : Replaced s.committed { s.working with generations := activated }
      request id rows := by
    refine ⟨h.fresh, ?_, h.chunks⟩
    simp only [activated, Table.rows_updateWhere, decide_eq_true_eq, h.generations]
    exact map_activated h.fresh
  -- The tables the activation leaves are consistent, so no two of a repository are active.
  have hone := (hreplaced.consistent hrows h.sound).oneActive
  have hwrite : s.tick.working.activate id = .ok { s.working with generations := activated } := by
    refine if_neg ?_
    rintro ⟨g, hg, g', hg', hactive, hactive', hsame, hne⟩
    exact hne (hone g hg g' hg' hactive hactive' hsame)
  exact statement_quiet (hquiet s.clock) hwrite

theorem total_insertChunks
    {id : Uuid} {rows : List (CodeChunk × Embedding)} {s : IndexState}
    (hquiet : ∀ n, (turns n).raises = none)
    (haccepts : ∀ p ∈ rows, p.1.encodable = true ∧ limits.accepts p.1 p.2 = true)
    (hnodup : (rows.map (fun p => p.1.identity)).Nodup)
    (h : Filling interpreter request id [] s) :
    Total limits turns request
      (Program.forEach rows (fun p => callIndex (.insertChunk id p.1 p.2)))
      (fun _ s' => Filling interpreter request id rows s') s := by
  refine (Program.safe_forEach_rest
    (I := fun rest s' => ∃ written, written ++ rest = rows ∧
      Filling interpreter request id written s') ?_ ⟨[], rfl, h⟩).mono ?_ (fun _ _ h => h)
  · rintro p rest s' ⟨written, hrows, hfilling⟩
    have hnew : ∀ q ∈ written, q.1.identity ≠ p.1.identity := by
      intro q hq heq
      rw [← hrows, List.map_append, List.map_cons] at hnodup
      have hdisjoint := (List.nodup_append.mp hnodup).2.2
      exact hdisjoint _ (List.mem_map_of_mem hq) _ List.mem_cons_self heq
    obtain ⟨hencodable, haccepted⟩ :=
      haccepts p (hrows ▸ List.mem_append_right _ List.mem_cons_self)
    refine total_callIndex (safe_insertChunk hfilling)
      (insertChunk_quiet hquiet hencodable haccepted hnew hfilling) ?_
    intro s'' hfilling'
    exact ⟨written ++ [p], by rw [← hrows, List.append_assoc]; rfl, hfilling'⟩
  · rintro _ s' ⟨written, hrows, hfilling⟩
    rw [List.append_nil] at hrows
    exact hrows ▸ hfilling

/-- Once a generation has taken the place of the active one, it is the active one. -/
theorem Replaced.activeGenerations_eq
    {db db' : RetrievalDatabase} {id : Uuid} {rows : List (CodeChunk × Embedding)}
    (h : Replaced db db' request id rows) :
    db'.activeGenerations request.repository =
      [{ request.generation id with state := .active }] := by
  unfold RetrievalDatabase.activeGenerations
  rw [h.generations, List.filter_append, List.filter_eq_nil_iff.mpr, List.nil_append]
  · simp [IndexRequest.generation, EmbeddingGeneration.repository, IndexRequest.repository]
  · intro g hg
    obtain ⟨old, hold, rfl⟩ := List.mem_map.mp hg
    rw [decide_eq_true_eq]
    rintro ⟨hrepository, hactive⟩
    obtain ⟨_, hother⟩ := (retiredRow_active_iff (h.fresh old hold)).mp hactive
    rw [retiredRow_repository] at hrepository
    exact hother hrepository

theorem total_writeGeneration
    {chunks : List CodeChunk} {vectors : List Embedding} {s : IndexState}
    (hu : Undisturbed interpreter limits turns request s.committed)
    (hfits : request.Fits)
    (hchunks : chunks = request.chunks interpreter)
    (hlength : vectors.length = chunks.length)
    (hvectors : ∀ vector ∈ vectors, limits.admitsVector vector = true)
    (hlines : ∀ chunk ∈ chunks, chunk.LinesFit)
    (hstorable : ∀ chunk ∈ chunks, chunk.encodable = true ∧ limits.admitsChunk chunk = true)
    (hnodup : (chunks.map CodeChunk.identity).Nodup)
    (h : Opened interpreter s) :
    Total limits turns request (writeGeneration chunks vectors)
      (fun id s' => s'.committed.activeGenerations request.repository =
        [{ request.generation id with state := .active }]) s := by
  have hfst : (chunks.zip vectors).map Prod.fst = chunks :=
    List.map_fst_zip (le_of_eq hlength.symm)
  have haccepts : ∀ p ∈ chunks.zip vectors,
      p.1.encodable = true ∧ limits.accepts p.1 p.2 = true := by
    intro p hp
    obtain ⟨hchunk, hvector⟩ := List.of_mem_zip hp
    obtain ⟨hencodable, hroom⟩ := hstorable p.1 hchunk
    exact ⟨hencodable, accepts_iff.mpr ⟨⟨hlines p.1 hchunk, hroom⟩, hvectors p.2 hvector⟩⟩
  have hidentities : ((chunks.zip vectors).map (fun p => p.1.identity)).Nodup := by
    rw [← hfst, List.map_map] at hnodup
    exact hnodup
  unfold writeGeneration Total
  rw [Program.bind_eq, Program.safe_bind]
  refine total_callIndex (safe_insertGeneration h) (insertGeneration_quiet hu hfits h) ?_
  intro s₁ hfilling
  rw [Program.bind_eq, Program.safe_bind]
  refine (total_insertChunks hu.quiet haccepts hidentities hfilling).mono ?_ (fun _ _ h => h)
  intro _ s₂ hfilled
  rw [Program.bind_eq, Program.safe_bind]
  unfold zipEnds
  rw [if_pos hlength.symm]
  refine Program.safe_ret.mpr ?_
  rw [Program.bind_eq, Program.safe_bind]
  refine total_callIndex (safe_retire hfilled) (statement_quiet (hu.quiet s₂.clock) rfl) ?_
  intro s₃ hretired
  rw [Program.bind_eq, Program.safe_bind]
  refine total_callIndex (safe_activate hretired)
    (activate_quiet hu.quiet (hfst.trans hchunks) hretired) ?_
  rintro s₄ ⟨_, hreplaced⟩
  rw [Program.bind_eq, Program.safe_bind]
  have hcommit : s₄.tick.commit (turns s₄.clock) request =
      (.ok (), { s₄.tick with committed := s₄.working, landed := s₄.landed ++ [request] }) := by
    unfold IndexState.commit
    rw [hu.quiet]
    rfl
  refine total_call (congrArg Prod.fst hcommit) ?_
  simp only [IndexRequest.answer, hcommit]
  exact hreplaced.activeGenerations_eq

/-- The embedder's answers are accepted. -/
theorem total_embedTexts
    {chunks : List CodeChunk} {s : IndexState}
    (hu : Undisturbed interpreter limits turns request s.committed)
    (hchunks : chunkTree interpreter request.leftOut request.tree = .ok chunks)
    (h : Opened interpreter s) :
    Total limits turns request (embedTexts request.embedder (chunks.map CodeChunk.content))
      (fun vectors s' => vectors.length = chunks.length ∧
        (∀ vector ∈ vectors, limits.admitsVector vector = true) ∧ Opened interpreter s' ∧
        s'.committed = s.committed) s := by
  unfold embedTexts Total
  rw [if_neg (not_not.mpr hu.contract)]
  split
  · next hempty =>
      have hnil : chunks = [] := by simpa using hempty
      exact ⟨by rw [hnil]; rfl, nofun, h, rfl⟩
  · rw [Program.bind_eq, Program.safe_bind]
    obtain ⟨hlength, hvectors⟩ := hu.embeds chunks hchunks s.clock
    have hwidth : ∀ vector ∈ (turns s.clock).vectors, vector.length = v1EmbeddingDimensions :=
      fun vector hvector => (hvectors vector hvector).1
    refine total_call (outcome_quiet (hu.quiet s.clock)) ?_
    rw [if_neg (by simpa using hlength), if_pos (by simpa using hwidth)]
    exact ⟨hlength, fun vector hvector => (hvectors vector hvector).2, ⟨h.sound, h.clean⟩, rfl⟩

theorem total_indexRepository
    {chunks : List CodeChunk} {s : IndexState}
    (hu : Undisturbed interpreter limits turns request s.committed)
    (hfits : request.Fits)
    (hchunks : chunkTree interpreter request.leftOut request.tree = .ok chunks)
    (hlines : ∀ chunk ∈ chunks, chunk.LinesFit)
    (hstorable : ∀ chunk ∈ chunks, chunk.encodable = true ∧ limits.admitsChunk chunk = true)
    (hnodup : (chunks.map CodeChunk.identity).Nodup)
    (h : Opened interpreter s) :
    Total limits turns request (indexRepository interpreter request)
      (fun generation s' =>
        s'.committed.activeGenerations request.repository = [generation]) s := by
  have hrequest : chunks = request.chunks interpreter := by
    unfold IndexRequest.chunks
    rw [hchunks]
    rfl
  unfold indexRepository Total
  rw [Program.bind_eq, Program.safe_bind]
  refine total_call (outcome_quiet (hu.quiet s.clock)) ?_
  rw [Program.bind_eq, Program.safe_bind]
  refine total_call (outcome_quiet (hu.quiet s.tick.clock)) ?_
  rw [Program.bind_eq, Program.safe_bind, Program.safe_ofExcept, hchunks]
  simp only [Except.mapError]
  rw [Program.bind_eq, Program.safe_bind]
  have hopened : Opened interpreter s.tick.tick := ⟨h.sound, h.clean⟩
  have hu' : Undisturbed interpreter limits turns request s.tick.tick.committed := hu
  refine (total_embedTexts hu' hchunks hopened).mono ?_ (fun _ _ h => h)
  rintro vectors s₁ ⟨hlength, hvectors, hopened₁, hcommitted⟩
  rw [Program.bind_eq, Program.safe_bind, Program.safe_catching]
  rw [← show s₁.committed = s.committed from hcommitted] at hu
  refine (total_writeGeneration hu hfits hrequest hlength hvectors hlines hstorable hnodup
    hopened₁).mono ?_ nofun
  intro id s₂ hactive
  exact hactive

/-! ## What a call that returned has written -/

/-- The judgement: a program that returns has met its postcondition. -/
abbrev Partial
    (limits : RowLimits) (turns : Nat → IndexTurn) (request : IndexRequest)
    {α : Type} (p : IndexProgram α) (Q : α → IndexState → Prop) (s : IndexState) : Prop :=
  Program.Safe (request.answer limits turns) (fun _ _ => True) (fun _ _ => True)
    p Q (fun _ _ => True) s

theorem partial_callIndex
    {op : IndexOp} {Q : op.Value → IndexState → Prop} {s : IndexState}
    (hQ : ∀ value, (request.answer limits turns op s).1 = .ok value →
      Q value (request.answer limits turns op s).2) :
    Partial limits turns request (callIndex op) Q s := by
  unfold callIndex Partial Program.perform
  rw [Program.bind_eq]
  refine ⟨trivial, fun _ => ?_⟩
  cases hanswer : (request.answer limits turns op s).1 with
  | ok value => exact hQ value hanswer
  | error e => trivial

/-- Any program, when nothing is asked of it. -/
theorem partial_any
    {α : Type} (p : IndexProgram α) (s : IndexState) :
    Partial limits turns request p (fun _ _ => True) s :=
  Program.safe_of_invariant (fun _ _ _ _ => trivial) p trivial

theorem insertGeneration_fits
    {s : IndexState} {id : Uuid}
    (h : (request.answer limits turns .insertGeneration s).1 = .ok id) :
    request.Fits := by
  simp only [IndexRequest.answer] at h
  cases hwritten : (s.tick.statement (turns s.clock)
      (fun db => db.insertGeneration (request.generation (turns s.clock).newId))).1 with
  | error error =>
      rw [hwritten] at h
      cases h
  | ok value =>
      have hdb := statement_ok hwritten
      unfold RetrievalDatabase.insertGeneration at hdb
      split at hdb
      · next hfits => exact fits_generation_iff.mp hfits
      · cases hdb

theorem insertChunk_accepts
    {s : IndexState} {id : Uuid} {chunk : CodeChunk} {vector : Embedding} {value : Unit}
    (h : (request.answer limits turns (.insertChunk id chunk vector) s).1 = .ok value) :
    chunk.encodable = true ∧ limits.accepts chunk vector = true := by
  exact (insertChunk_ok (statement_ok h)).1

theorem partial_insertChunks
    {id : Uuid} (rows : List (CodeChunk × Embedding)) (s : IndexState) :
    Partial limits turns request
      (Program.forEach rows (fun p => callIndex (.insertChunk id p.1 p.2)))
      (fun _ _ => ∀ p ∈ rows, p.1.encodable = true ∧ limits.accepts p.1 p.2 = true) s := by
  refine (Program.safe_forEach_rest
    (I := fun rest _ => ∃ written, written ++ rest = rows ∧
      ∀ p ∈ written, p.1.encodable = true ∧ limits.accepts p.1 p.2 = true)
        ?_ ⟨[], rfl, nofun⟩).mono ?_ (fun _ _ h => h)
  · rintro p rest s' ⟨written, hrows, haccepted⟩
    refine partial_callIndex (fun value hvalue => ⟨written ++ [p], ?_, ?_⟩)
    · rw [← hrows, List.append_assoc]
      rfl
    · intro q hq
      rcases List.mem_append.mp hq with hold | hlast
      · exact haccepted q hold
      · rw [List.mem_singleton.mp hlast]
        exact insertChunk_accepts hvalue
  · rintro _ s' ⟨written, hrows, haccepted⟩
    rw [List.append_nil] at hrows
    exact hrows ▸ haccepted

theorem partial_writeGeneration
    (chunks : List CodeChunk) (vectors : List Embedding) (s : IndexState) :
    Partial limits turns request (writeGeneration chunks vectors)
      (fun _ _ => request.Fits ∧ (∀ chunk ∈ chunks, chunk.LinesFit) ∧
        ∀ chunk ∈ chunks, chunk.encodable = true ∧ limits.admitsChunk chunk = true) s := by
  unfold writeGeneration Partial
  rw [Program.bind_eq, Program.safe_bind]
  refine partial_callIndex (fun id hid => ?_)
  have hfits := insertGeneration_fits hid
  rw [Program.bind_eq, Program.safe_bind]
  refine (partial_insertChunks (chunks.zip vectors) _).mono ?_ (fun _ _ h => h)
  intro _ s₁ haccepted
  rw [Program.bind_eq, Program.safe_bind]
  unfold zipEnds
  split
  · next hlength =>
      have hrows : ∀ chunk ∈ chunks, ∃ vector, chunk.encodable = true ∧
          limits.accepts chunk vector = true := by
        intro chunk hchunk
        rw [← List.map_fst_zip (le_of_eq hlength)] at hchunk
        obtain ⟨p, hp, rfl⟩ := List.mem_map.mp hchunk
        exact ⟨p.2, haccepted p hp⟩
      refine Program.safe_ret.mpr ((partial_any _ _).mono ?_ (fun _ _ h => h))
      intro _ s₂ _
      refine ⟨hfits, fun chunk hchunk => ?_, fun chunk hchunk => ?_⟩
      · obtain ⟨vector, _, haccepts⟩ := hrows chunk hchunk
        exact (accepts_iff.mp haccepts).1.1
      · obtain ⟨vector, hencodable, haccepts⟩ := hrows chunk hchunk
        exact ⟨hencodable, (accepts_iff.mp haccepts).1.2⟩
  · trivial

theorem partial_indexRepository
    (s : IndexState) :
    Partial limits turns request (indexRepository interpreter request)
      (fun _ _ => request.Fits ∧ ∃ chunks,
        chunkTree interpreter request.leftOut request.tree = .ok chunks ∧
          (∀ chunk ∈ chunks, chunk.LinesFit) ∧
          ∀ chunk ∈ chunks, chunk.encodable = true ∧ limits.admitsChunk chunk = true) s := by
  unfold indexRepository Partial
  rw [Program.bind_eq, Program.safe_bind]
  refine partial_callIndex (fun _ _ => ?_)
  rw [Program.bind_eq, Program.safe_bind]
  refine partial_callIndex (fun tree htree => ?_)
  rw [readTree_ok htree, Program.bind_eq, Program.safe_bind, Program.safe_ofExcept]
  cases hchunks : chunkTree interpreter request.leftOut request.tree with
  | error error => trivial
  | ok chunks =>
      simp only [Except.mapError]
      rw [Program.bind_eq, Program.safe_bind]
      refine (partial_any _ _).mono ?_ (fun _ _ h => h)
      intro vectors s₁ _
      rw [Program.bind_eq, Program.safe_bind, Program.safe_catching]
      refine (partial_writeGeneration chunks vectors s₁).mono ?_ ?_
      · rintro id s₂ ⟨hfits, hwritten⟩
        exact ⟨hfits, chunks, rfl, hwritten⟩
      · intro error s₂ _
        rw [Program.bind_eq, Program.safe_bind]
        exact partial_callIndex (fun _ _ => trivial)

end Undisturbed

/-! ## The trees that are indexed -/

/--
After any calls, a call that nothing disturbs makes chunks of distinct identities and
activates its generation exactly if no Python file of the tree defines a dotted name
twice, the interpreter walks the files, and PostgreSQL can store the chunks and the
generation.
-/
theorem index_any_tree_iff
    (interpreter : Interpreter) (limits : RowLimits) (earlier turns : Nat → IndexTurn)
    (calls : List IndexCall) (request : IndexRequest)
    (hparse : Parses interpreter (indexedFiles request.leftOut request.tree))
    (hu : Undisturbed interpreter limits turns request
      (indexedState interpreter limits earlier calls).committed) :
    let s := indexedState interpreter limits earlier calls
    let after := Program.run (request.answer limits turns) (indexRepository interpreter request) s
    let files := indexedFiles request.leftOut request.tree
    (∃ chunks, chunkTree interpreter request.leftOut request.tree = .ok chunks ∧
        (chunks.map CodeChunk.identity).Nodup ∧
        ∃ generation, after.1 = .ok generation ∧
          after.2.committed.activeGenerations request.repository = [generation]) ↔
      Unambiguous interpreter files ∧ Walkable interpreter files ∧
        Countable interpreter files ∧ Storable interpreter limits files ∧ request.Fits := by
  intro s after files
  have hopened : Opened interpreter s := opened_indexedState calls
  constructor
  · rintro ⟨chunks, hchunks, hnodup, generation, hreturned, _⟩
    have hwalk : Walkable interpreter files := by
      by_contra hnot
      obtain ⟨error, herror⟩ := chunkFiles_error hnot
      rw [chunkTree, herror] at hchunks
      cases hchunks
    obtain ⟨chunks', hchunks', _, hiff⟩ :=
      chunkFiles_ok hparse hwalk (nodup_indexedFiles request.leftOut request.tree)
    have hsame : chunks' = chunks := Except.ok.inj (hchunks'.symm.trans hchunks)
    subst hsame
    have hpartial : Partial limits turns request (indexRepository interpreter request) _ s :=
      partial_indexRepository s
    obtain ⟨hfits, chunks'', hchunks'', hlines, hwritten⟩ :=
      hpartial.of_ok (fun _ _ => trivial) hreturned
    have hcount := (chunkFiles_linesFit_iff hparse hchunks'').mp hlines
    have hstorable := (chunkFiles_storable_iff hchunks'').mp hwritten
    exact ⟨hiff.mp hnodup, hwalk, hcount, hstorable, hfits⟩
  · rintro ⟨hunambiguous, hwalk, hcount, hstorable, hfits⟩
    obtain ⟨chunks, hchunks, _, hiff⟩ :=
      chunkFiles_ok hparse hwalk (nodup_indexedFiles request.leftOut request.tree)
    have hnodup := hiff.mpr hunambiguous
    have hlines := (chunkFiles_linesFit_iff hparse hchunks).mpr hcount
    have hwritable := (chunkFiles_storable_iff hchunks).mpr hstorable
    have htotal :=
      total_indexRepository hu hfits hchunks hlines hwritable hnodup hopened
    have houtcome := htotal.outcome (fun _ _ => trivial)
    refine ⟨chunks, hchunks, hnodup, ?_⟩
    cases hafter : after with
    | mk outcome s' =>
        rw [show Program.run (request.answer limits turns)
          (indexRepository interpreter request) s = (outcome, s') from hafter] at houtcome
        cases outcome with
        | ok generation => exact ⟨generation, rfl, houtcome⟩
        | error error => exact houtcome.elim

/-! ## A property with a setter -/

section PropertyWithSetter

/-- A node that defines nothing. -/
def plainNode (children : List AstNode) : AstNode :=
  .mk none children

def identifierC : Identifier where
  text := "C"
  text_ne := by decide
  plain := by decide
  noDigit := by
    intro c hc
    cases hc
    rfl

def identifierX : Identifier where
  text := "x"
  text_ne := by decide
  plain := by decide
  noDigit := by
    intro c hc
    cases hc
    rfl

def propertySource : String :=
  "class C:\n  @property\n  def x(self): pass\n  @x.setter\n  def x(self, v): pass\n"

/-- The syntax tree of that source. -/
def propertyModule : AstNode :=
  let argument := plainNode []
  let load := plainNode []
  let getter : Definition := ⟨identifierX, 3, [2], some 3, by decide, by decide, by decide⟩
  let setter : Definition := ⟨identifierX, 5, [4], some 5, by decide, by decide, by decide⟩
  let owner : Definition := ⟨identifierC, 1, [], some 5, by decide, by decide, by decide⟩
  plainNode [.mk (some owner)
    [.mk (some getter) [plainNode [argument], plainNode [], plainNode [load]],
      .mk (some setter)
        [plainNode [argument, argument], plainNode [], plainNode [plainNode [load], load]]]]

def propertyInterpreter : Interpreter where
  parse := fun source => if source = propertySource then .tree propertyModule else .syntaxError
  frames := 900
  lower := fun text => text
  lower_text := fun _ h => h
  sha256 := fun _ => ""

def propertyRequest : IndexRequest where
  tree := ⟨[(⟨[], .ofString "a.py", by decide⟩, .text propertySource)], by decide⟩
  installationId := 1
  repositoryId := 2
  commitSha := "c0ffee"
  embedder := ⟨"model", 1536⟩
  leftOut := ⟨[], []⟩

def noRowLimits : RowLimits :=
  ⟨fun _ => true, fun _ => true⟩

/-- Every call succeeds, and an embedder answers for three texts. -/
def quietIndexTurn : IndexTurn where
  raises := none
  vectors := List.replicate 3 (List.replicate 1536 (.finite 0 0))
  newId := ⟨"aaaaaaaa-0000-4000-8000-00000000000a", by decide⟩

theorem chunkTree_property :
    (chunkTree propertyInterpreter propertyRequest.leftOut propertyRequest.tree).map
      (List.map CodeChunk.identity) = .ok
        (["a.py::C", "a.py::C.x", "a.py::C.x"].map PyStr.ofString) := by
  decide +kernel

theorem undisturbed_property :
    Undisturbed propertyInterpreter noRowLimits (fun _ => quietIndexTurn) propertyRequest
      RetrievalDatabase.empty := by
  refine ⟨fun _ => rfl, rfl, ?_, nofun⟩
  intro chunks hchunks n
  have hidentities := chunkTree_property
  rw [hchunks] at hidentities
  have hlength := congrArg List.length (Except.ok.inj hidentities)
  rw [List.length_map] at hlength
  refine ⟨hlength.symm, fun vector hvector => ?_⟩
  rw [List.eq_of_mem_replicate hvector, List.length_replicate]
  exact ⟨rfl, rfl⟩

end PropertyWithSetter

/-- A property and its setter have one dotted name, and the insert of the second fails. -/
theorem index_of_property_with_setter :
    ∃ chunks, chunkTree propertyInterpreter propertyRequest.leftOut propertyRequest.tree =
        .ok chunks ∧ ¬ (chunks.map CodeChunk.identity).Nodup ∧
      (Program.run (propertyRequest.answer noRowLimits (fun _ => quietIndexTurn))
        (indexRepository propertyInterpreter propertyRequest) .new).1 =
          .error .uniqueViolation := by
  cases hchunks : chunkTree propertyInterpreter propertyRequest.leftOut propertyRequest.tree with
  | error error =>
      have hidentities := chunkTree_property
      rw [hchunks] at hidentities
      cases hidentities
  | ok chunks =>
      have hidentities := chunkTree_property
      rw [hchunks] at hidentities
      refine ⟨chunks, rfl, ?_, by decide +kernel⟩
      have hmap : chunks.map CodeChunk.identity = _ := Except.ok.inj hidentities
      rw [hmap]
      decide

theorem index_any_tree_iff_property :
    let request := propertyRequest
    let turns : Nat → IndexTurn := fun _ => quietIndexTurn
    let after := Program.run (request.answer noRowLimits turns)
      (indexRepository propertyInterpreter request)
      (indexedState propertyInterpreter noRowLimits turns [])
    let files := indexedFiles request.leftOut request.tree
    (∃ chunks, chunkTree propertyInterpreter request.leftOut request.tree = .ok chunks ∧
        (chunks.map CodeChunk.identity).Nodup ∧
        ∃ generation, after.1 = .ok generation ∧
          after.2.committed.activeGenerations request.repository = [generation]) ↔
      Unambiguous propertyInterpreter files ∧ Walkable propertyInterpreter files ∧
        Countable propertyInterpreter files ∧
        Storable propertyInterpreter noRowLimits files ∧ request.Fits := by
  refine index_any_tree_iff propertyInterpreter noRowLimits (fun _ => quietIndexTurn)
    (fun _ => quietIndexTurn) [] propertyRequest ?_ undisturbed_property
  intro file hfile error
  simp only [propertyInterpreter]
  split
  · exact nofun
  · exact nofun

end Retrieval
end PrReviewer
