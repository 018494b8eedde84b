import PrReviewer.Retrieval.ChunkCode

/-!
# The identities of the chunks

An identity is the path of the file with the dotted name of a definition, or with the
range of a window.  Paths, dotted names and ranges are recovered from it: two chunks of a
tree have one identity exactly when one Python file defines a dotted name twice.
-/

namespace PrReviewer
namespace Retrieval

open Lib

/-! ## What an identity is made of -/

theorem joinParts_inj
    {sep : Char} {parts parts' : List String}
    (hparts : ∀ part ∈ parts, sep ∉ part.toList) (hparts' : ∀ part ∈ parts', sep ∉ part.toList)
    (hne : parts ≠ []) (hne' : parts' ≠ [])
    (h : joinParts sep parts = joinParts sep parts') :
    parts = parts' := by
  have hlists : [sep].intercalate (parts.map String.toList) =
      [sep].intercalate (parts'.map String.toList) := by
    have htext := congrArg String.toList h
    simpa only [joinParts, String.toList_ofList] using htext
  have hmaps := intercalate_inj (by simpa using hparts) (by simpa using hparts')
    (by simpa using hne) (by simpa using hne') hlists
  have hinjective : Function.Injective String.toList := fun _ _ => String.toList_inj.mp
  exact List.map_injective_iff.mpr hinjective hmaps

theorem RelativePath.text_injective :
    Function.Injective RelativePath.text := by
  intro path path' h
  have hparts : path.parts = path'.parts :=
    join_inj (fun part hpart => (path.plain part hpart).2.1)
      (fun part hpart => (path'.plain part hpart).2.1) (by simp [RelativePath.parts])
      (by simp [RelativePath.parts]) h
  obtain ⟨directories, name, _⟩ := path
  obtain ⟨directories', name', _⟩ := path'
  obtain ⟨rfl, hname⟩ := List.append_inj' hparts rfl
  cases hname
  rfl

/-- The dotted name of a path of names. -/
def dotted (names : List Identifier) : String :=
  joinParts '.' (names.map Identifier.text)

theorem Identifier.text_injective :
    Function.Injective Identifier.text := by
  rintro ⟨text, _, _, _⟩ ⟨text', _, _, _⟩ h
  cases h
  rfl

theorem dotted_inj
    {names names' : List Identifier}
    (hne : names ≠ []) (hne' : names' ≠ [])
    (h : dotted names = dotted names') :
    names = names' := by
  have hplain : ∀ names : List Identifier, ∀ part ∈ names.map Identifier.text,
      '.' ∉ part.toList := by
    intro names part hpart
    obtain ⟨name, _, rfl⟩ := List.mem_map.mp hpart
    exact name.plain.1
  have hmaps := joinParts_inj (hplain names) (hplain names') (by simpa using hne)
    (by simpa using hne') h
  exact List.map_injective_iff.mpr Identifier.text_injective hmaps

/-- The characters of a dotted name. -/
theorem toList_dotted_cons
    (name : Identifier) (rest : List Identifier) :
    (dotted (name :: rest)).toList =
      name.text.toList ++ rest.flatMap (fun other => '.' :: other.text.toList) := by
  simp only [dotted, joinParts, String.toList_ofList, List.map_map]
  induction rest generalizing name with
  | nil => simp
  | cons other rest ih =>
      have hother := ih other
      simp only [List.map_cons, List.intercalate_cons_cons, List.flatMap_cons,
        Function.comp] at hother ⊢
      rw [hother]
      simp

/-- A dotted name holds no colon and does not begin with a digit. -/
theorem dotted_plain
    {names : List Identifier}
    (hne : names ≠ []) :
    ':' ∉ (dotted names).toList ∧
      ∃ c, (dotted names).toList.head? = some c ∧ c.isDigit = false := by
  cases names with
  | nil => exact absurd rfl hne
  | cons name rest =>
      rw [toList_dotted_cons]
      constructor
      · intro hmem
        rcases List.mem_append.mp hmem with hname | hrest
        · exact name.plain.2 hname
        · obtain ⟨other, _, hother⟩ := List.mem_flatMap.mp hrest
          rcases List.mem_cons.mp hother with hdot | hother
          · exact absurd hdot (by decide)
          · exact other.plain.2 hother
      · cases hchars : name.text.toList with
        | nil => exact absurd (String.toList_eq_nil_iff.mp hchars) name.text_ne
        | cons c cs => exact ⟨c, by simp, name.noDigit c (by rw [hchars]; rfl)⟩

theorem dotted_ne
    {names : List Identifier}
    (hne : names ≠ []) :
    dotted names ≠ "" := by
  intro hempty
  obtain ⟨_, c, hhead, _⟩ := dotted_plain hne
  rw [hempty] at hhead
  cases hhead

/-- The chunk's name of a definition below the names of its surroundings. -/
theorem qualifiedName_dotted
    (outer : List Identifier) (name : Identifier) :
    qualifiedName (dotted outer) name = dotted (outer ++ [name]) := by
  unfold qualifiedName
  apply String.toList_inj.mp
  cases outer with
  | nil =>
      rw [if_neg (by simp [dotted, joinParts]), List.nil_append, toList_dotted_cons]
      simp
  | cons first rest =>
      rw [if_pos (dotted_ne (List.cons_ne_nil _ _)), List.cons_append, toList_dotted_cons]
      simp [toList_dotted_cons]

/-! ## The names a file defines -/

mutual

/-- The paths of names of the definitions in a tree, in the order of their chunks. -/
def namePaths (outer : List Identifier) : AstNode → List (List Identifier)
  | .mk _ children => namePathsOf outer children

def namePathsOf (outer : List Identifier) : List AstNode → List (List Identifier)
  | [] => []
  | .mk definition children :: rest =>
      match definition with
      | some node =>
          (outer ++ [node.name]) ::
            (namePaths (outer ++ [node.name]) (.mk definition children) ++ namePathsOf outer rest)
      | none => namePaths outer (.mk definition children) ++ namePathsOf outer rest

end

mutual

/-- The nested calls of `_walk_python` on a tree. -/
def depth : AstNode → Nat
  | .mk _ children => depthOf children + 1

def depthOf : List AstNode → Nat
  | [] => 0
  | child :: rest => max (depth child) (depthOf rest)

end

mutual

theorem namePaths_ne
    (outer : List Identifier) :
    ∀ node, ∀ names ∈ namePaths outer node, names ≠ []
  | .mk _ children => namePathsOf_ne outer children

theorem namePathsOf_ne
    (outer : List Identifier) :
    ∀ children, ∀ names ∈ namePathsOf outer children, names ≠ []
  | [] => nofun
  | .mk (some node) children :: rest => by
      intro names hnames
      unfold namePathsOf at hnames
      rcases List.mem_cons.mp hnames with rfl | hnames
      · simp
      · rcases List.mem_append.mp hnames with hnested | hlater
        · exact namePaths_ne _ (.mk (some node) children) names hnested
        · exact namePathsOf_ne outer rest names hlater
  | .mk none children :: rest => by
      intro names hnames
      unfold namePathsOf at hnames
      rcases List.mem_append.mp hnames with hnested | hlater
      · exact namePaths_ne _ (.mk none children) names hnested
      · exact namePathsOf_ne outer rest names hlater

end

section Walk

variable (interpreter : Interpreter) (path : RelativePath) (lines : List PyStr)

/-- The identity of a definition. -/
def definitionIdentity (names : List Identifier) : PyStr :=
  path.text ++ .ofString "::" ++ .ofString (dotted names)

mutual

/-- A walk with frames enough makes a chunk of every definition. -/
theorem walkPython_ok
    (frames : Nat) (outer : List Identifier) :
    ∀ node, depth node ≤ frames →
      ∃ chunks, walkPython interpreter path lines frames (dotted outer) node = .ok chunks ∧
        chunks.map CodeChunk.identity = (namePaths outer node).map (definitionIdentity path)
  | .mk definition children => by
      intro hdepth
      cases frames with
      | zero => simp [depth] at hdepth
      | succ frames =>
          obtain ⟨chunks, hwalk, hidentities⟩ := walkChildren_ok frames outer children
            (by simpa [depth] using hdepth)
          exact ⟨chunks, by simp only [walkPython, hwalk], hidentities⟩

theorem walkChildren_ok
    (frames : Nat) (outer : List Identifier) :
    ∀ children, depthOf children ≤ frames →
      ∃ chunks, walkChildren interpreter path lines frames (dotted outer) children = .ok chunks ∧
        chunks.map CodeChunk.identity =
          (namePathsOf outer children).map (definitionIdentity path)
  | [] => fun _ => ⟨[], rfl, rfl⟩
  | .mk (some node) children :: rest => by
      intro hdepth
      unfold depthOf at hdepth
      obtain ⟨nested, hnested, hnames⟩ := walkPython_ok frames (outer ++ [node.name])
        (.mk (some node) children) (le_trans (le_max_left _ _) hdepth)
      obtain ⟨later, hlater, hlaterNames⟩ := walkChildren_ok frames outer rest
        (le_trans (le_max_right _ _) hdepth)
      refine ⟨_, by
        simp only [walkChildren, qualifiedName_dotted, hnested, hlater, ok_bind]; rfl, ?_⟩
      simp only [namePathsOf, List.map_cons, List.map_append, hnames, hlaterNames]
      rfl
  | .mk none children :: rest => by
      intro hdepth
      unfold depthOf at hdepth
      obtain ⟨nested, hnested, hnames⟩ := walkPython_ok frames outer
        (.mk none children) (le_trans (le_max_left _ _) hdepth)
      obtain ⟨later, hlater, hlaterNames⟩ := walkChildren_ok frames outer rest
        (le_trans (le_max_right _ _) hdepth)
      refine ⟨_, by simp only [walkChildren, hnested, hlater, ok_bind]; rfl, ?_⟩
      simp only [namePathsOf, List.map_append, hnames, hlaterNames]

end

mutual

/-- A walk with too few frames raises. -/
theorem walkPython_error
    (frames : Nat) (outer : String) :
    ∀ node, frames < depth node →
      ∃ error, walkPython interpreter path lines frames outer node = .error error
  | .mk definition children => by
      intro hdepth
      cases frames with
      | zero => exact ⟨_, rfl⟩
      | succ frames =>
          obtain ⟨error, herror⟩ := walkChildren_error frames outer children
            (by simpa [depth] using hdepth)
          exact ⟨error, by simp only [walkPython, herror]⟩

theorem walkChildren_error
    (frames : Nat) (outer : String) :
    ∀ children, frames < depthOf children →
      ∃ error, walkChildren interpreter path lines frames outer children = .error error
  | [] => fun h => absurd h (Nat.not_lt_zero _)
  | .mk definition children :: rest => by
      intro hdepth
      have hcases : frames < depth (.mk definition children) ∨ frames < depthOf rest := by
        simpa [depthOf] using hdepth
      have hnested := fun inner : String =>
        walkPython_error frames inner (.mk definition children)
      have hlater := walkChildren_error frames outer rest
      cases definition with
      | some node =>
          simp only [walkChildren]
          cases hfirst : walkPython interpreter path lines frames
              (qualifiedName outer node.name) (.mk (some node) children) with
          | error error => exact ⟨error, rfl⟩
          | ok nested =>
              rcases hcases with hdeep | hrest
              · obtain ⟨error, herror⟩ := hnested (qualifiedName outer node.name) hdeep
                rw [hfirst] at herror
                cases herror
              · obtain ⟨error, herror⟩ := hlater hrest
                exact ⟨error, by rw [herror]; rfl⟩
      | none =>
          simp only [walkChildren]
          cases hfirst : walkPython interpreter path lines frames outer (.mk none children) with
          | error error => exact ⟨error, rfl⟩
          | ok nested =>
              rcases hcases with hdeep | hrest
              · obtain ⟨error, herror⟩ := hnested outer hdeep
                rw [hfirst] at herror
                cases herror
              · obtain ⟨error, herror⟩ := hlater hrest
                exact ⟨error, by rw [herror]; rfl⟩

end

end Walk

/-! ## The windows of a file -/

section Windows

variable {interpreter : Interpreter} {path : RelativePath} {lines : List PyStr}

/-- The identity of a window. -/
def windowIdentity (path : RelativePath) (start stop : Nat) : PyStr :=
  path.text ++ .ofString ":window:" ++ decimal start ++ .ofString ":" ++ decimal stop

/-- The windows start further and further down. -/
theorem windowsFrom_starts
    (interpreter : Interpreter) (path : RelativePath) (lines : List PyStr) (start : Nat) :
    (∀ chunk ∈ windowsFrom interpreter path lines start,
        start ≤ chunk.startLine ∧
          chunk = windowChunk interpreter path lines chunk.startLine) ∧
      (windowsFrom interpreter path lines start).Pairwise
        (fun a b => a.startLine < b.startLine) := by
  fun_induction windowsFrom interpreter path lines start with
  | case1 start hstart chunk hlast =>
      refine ⟨?_, List.pairwise_singleton _ _⟩
      intro other hother
      rw [List.mem_singleton] at hother
      subst hother
      exact ⟨le_refl _, rfl⟩
  | case2 start hstart chunk hmore ih =>
      refine ⟨?_, List.Pairwise.cons ?_ ih.2⟩
      · intro other hother
        rcases List.mem_cons.mp hother with rfl | hrest
        · exact ⟨le_refl _, rfl⟩
        · obtain ⟨hle, heq⟩ := ih.1 other hrest
          exact ⟨by omega, heq⟩
      · intro other hother
        have hle := (ih.1 other hother).1
        have hfirst : chunk.startLine = start := rfl
        simp only [windowSizeLines, windowOverlapLines] at hle
        omega
  | case3 start hstart => exact ⟨nofun, List.Pairwise.nil⟩

theorem mem_chunkWindows
    {source : String} {chunk : CodeChunk}
    (h : chunk ∈ chunkWindows interpreter path source) :
    ∃ start stop, chunk.identity = windowIdentity path start stop ∧ chunk.startLine = start := by
  simp only [chunkWindows] at h
  split at h
  · cases h
  · obtain ⟨_, heq⟩ := (windowsFrom_starts _ _ _ 1).1 chunk h
    exact ⟨chunk.startLine, _, congrArg CodeChunk.identity heq, rfl⟩

end Windows

/-! ## What an identity tells -/

/-- A number's text holds no colon and begins with a digit. -/
theorem toString_plain
    (n : Nat) :
    ':' ∉ (toString n).toList ∧
      ∃ c, (toString n).toList.head? = some c ∧ c.isDigit = true := by
  have hdigits : ∀ c ∈ (toString n).toList, c.isDigit = true := by
    intro c hc
    rw [Nat.toString_eq_ofList_toDigits, String.toList_ofList] at hc
    exact Nat.isDigit_of_mem_toDigits (by omega) (by omega) hc
  constructor
  · intro hcolon
    exact absurd (hdigits _ hcolon) (by decide)
  · cases hchars : (toString n).toList with
    | nil =>
        rw [Nat.toString_eq_ofList_toDigits, String.toList_ofList] at hchars
        exact absurd hchars Nat.toDigits_ne_nil
    | cons c cs => exact ⟨c, rfl, hdigits c (by rw [hchars]; simp)⟩

/-- Texts agree up to their last colon. -/
theorem colon_inj
    {first first' : PyStr} {last last' : String}
    (hlast : ':' ∉ last.toList) (hlast' : ':' ∉ last'.toList)
    (h : first ++ .ofString ":" ++ .ofString last = first' ++ .ofString ":" ++ .ofString last') :
    first = first' ∧ last = last' := by
  rw [PyStr.append_assoc, PyStr.append_assoc] at h
  obtain ⟨hfirst, hrest⟩ :=
    append_cons_inj_right (pointOf_not_mem_ofString hlast) (pointOf_not_mem_ofString hlast')
      (congrArg PyStr.points h)
  exact ⟨congrArg PyStr.mk hfirst, PyStr.ofString_injective (congrArg PyStr.mk hrest)⟩

theorem append_right_inj
    {first first' last : PyStr}
    (h : first ++ last = first' ++ last) :
    first = first' :=
  congrArg PyStr.mk (List.append_cancel_right (congrArg PyStr.points h))

theorem definitionIdentity_eq
    (path : RelativePath) (names : List Identifier) :
    definitionIdentity path names =
      path.text ++ .ofString ":" ++ .ofString ":" ++ .ofString (dotted names) := by
  have hcolons : path.text ++ .ofString "::" = path.text ++ .ofString ":" ++ .ofString ":" := by
    rw [PyStr.append_assoc, ← PyStr.ofString_append]
    rfl
  rw [definitionIdentity, hcolons]

theorem definitionIdentity_inj
    {path path' : RelativePath} {names names' : List Identifier}
    (hne : names ≠ []) (hne' : names' ≠ [])
    (h : definitionIdentity path names = definitionIdentity path' names') :
    path = path' ∧ names = names' := by
  rw [definitionIdentity_eq, definitionIdentity_eq] at h
  obtain ⟨hpath, hnames⟩ := colon_inj (dotted_plain hne).1 (dotted_plain hne').1 h
  exact ⟨RelativePath.text_injective (append_right_inj hpath), dotted_inj hne hne' hnames⟩

theorem windowIdentity_inj
    {path path' : RelativePath} {start start' stop stop' : Nat}
    (h : windowIdentity path start stop = windowIdentity path' start' stop') :
    path = path' ∧ start = start' := by
  obtain ⟨hfirst, _⟩ := colon_inj (toString_plain stop).1 (toString_plain stop').1 h
  have hwindow : ∀ text : PyStr,
      text ++ .ofString ":window:" = text ++ .ofString ":window" ++ .ofString ":" := by
    intro text
    rw [PyStr.append_assoc, ← PyStr.ofString_append]
    rfl
  rw [hwindow, hwindow] at hfirst
  obtain ⟨hpath, hstart⟩ := colon_inj (toString_plain start).1 (toString_plain start').1 hfirst
  exact ⟨RelativePath.text_injective (append_right_inj hpath),
    decimal_injective (congrArg PyStr.ofString hstart)⟩

/-- The last field of a definition's identity begins with no digit. -/
theorem definitionIdentity_ne_windowIdentity
    {path path' : RelativePath} {names : List Identifier} {start stop : Nat}
    (hne : names ≠ []) :
    definitionIdentity path names ≠ windowIdentity path' start stop := by
  intro h
  rw [definitionIdentity_eq] at h
  obtain ⟨_, hlast⟩ := colon_inj (dotted_plain hne).1 (toString_plain stop).1 h
  obtain ⟨c, hc, hletter⟩ := (dotted_plain hne).2
  obtain ⟨d, hd, hdigit⟩ := (toString_plain stop).2
  rw [hlast, hd] at hc
  cases hc
  rw [hletter] at hdigit
  cases hdigit

/-! ## The identities of a tree -/

section Tree

variable (interpreter : Interpreter)

/-- The tree of a Python file that `ast.parse` accepts. -/
def moduleOf (file : RelativePath × String) : Option AstNode :=
  if pathSuffix file.1.name = .ofString ".py" then
    match interpreter.parse file.2 with
    | .tree module => some module
    | _ => none
  else
    none

/-- `ast.parse` returns a tree or raises a SyntaxError. -/
def Parses (files : List (RelativePath × String)) : Prop :=
  ∀ file ∈ files, ∀ error, interpreter.parse file.2 ≠ .raises error

/-- No tree of a Python file is deeper than the interpreter walks. -/
def Walkable (files : List (RelativePath × String)) : Prop :=
  ∀ file ∈ files, ∀ module, moduleOf interpreter file = some module →
    depth module ≤ interpreter.frames

/-- No Python file defines a dotted name twice. -/
def Unambiguous (files : List (RelativePath × String)) : Prop :=
  ∀ file ∈ files, ∀ module, moduleOf interpreter file = some module →
    (namePaths [] module).Nodup

/-- The identities of the chunks of a file. -/
def FileIdentity (file : RelativePath × String) (identity : PyStr) : Prop :=
  match moduleOf interpreter file with
  | some module => ∃ names ∈ namePaths [] module, identity = definitionIdentity file.1 names
  | none => ∃ start stop, identity = windowIdentity file.1 start stop

variable {interpreter}

/-- The path of a file is recovered from the identities of its chunks. -/
theorem FileIdentity.path_eq
    {file file' : RelativePath × String} {identity : PyStr}
    (h : FileIdentity interpreter file identity) (h' : FileIdentity interpreter file' identity) :
    file.1 = file'.1 := by
  unfold FileIdentity at h h'
  split at h
  · obtain ⟨names, hnames, rfl⟩ := h
    have hne := namePaths_ne [] _ names hnames
    split at h'
    · obtain ⟨names', hnames', heq⟩ := h'
      exact (definitionIdentity_inj hne (namePaths_ne [] _ names' hnames') heq).1
    · obtain ⟨start, stop, heq⟩ := h'
      exact absurd heq (definitionIdentity_ne_windowIdentity hne)
  · obtain ⟨start, stop, rfl⟩ := h
    split at h'
    · obtain ⟨names, hnames, heq⟩ := h'
      exact absurd heq.symm (definitionIdentity_ne_windowIdentity (namePaths_ne [] _ names hnames))
    · obtain ⟨start', stop', heq⟩ := h'
      exact (windowIdentity_inj heq).1

theorem chunkSource_of_module
    {file : RelativePath × String} {module : AstNode}
    (h : moduleOf interpreter file = some module) :
    chunkSource interpreter file.1 file.2 =
      walkPython interpreter file.1 (PyStr.ofString file.2).splitlines interpreter.frames ""
        module := by
  unfold moduleOf at h
  unfold chunkSource
  split at h
  · next hpython =>
      rw [if_pos hpython]
      cases hparse : interpreter.parse file.2 with
      | tree tree =>
          rw [hparse] at h
          cases h
          rfl
      | syntaxError =>
          rw [hparse] at h
          cases h
      | raises error =>
          rw [hparse] at h
          cases h
  · cases h

theorem chunkSource_of_no_module
    {file : RelativePath × String}
    (h : moduleOf interpreter file = none)
    (hparse : ∀ error, interpreter.parse file.2 ≠ .raises error) :
    chunkSource interpreter file.1 file.2 = .ok (chunkWindows interpreter file.1 file.2) := by
  unfold moduleOf at h
  unfold chunkSource
  split at h
  · next hpython =>
      rw [if_pos hpython]
      cases hfile : interpreter.parse file.2 with
      | tree tree =>
          rw [hfile] at h
          cases h
      | syntaxError => rfl
      | raises error => exact absurd hfile (hparse error)
  · next hother => rw [if_neg hother]

theorem nodup_chunkWindows
    (path : RelativePath) (source : String) :
    ((chunkWindows interpreter path source).map CodeChunk.identity).Nodup := by
  have hpairwise : (chunkWindows interpreter path source).Pairwise
      (fun a b => a.startLine < b.startLine) := by
    simp only [chunkWindows]
    split
    · exact List.Pairwise.nil
    · exact (windowsFrom_starts _ _ _ 1).2
  refine List.pairwise_map.mpr (hpairwise.imp_of_mem ?_)
  intro a b ha hb hlt heq
  obtain ⟨start, stop, hidentity, hstart⟩ := mem_chunkWindows ha
  obtain ⟨start', stop', hidentity', hstart'⟩ := mem_chunkWindows hb
  rw [hidentity, hidentity'] at heq
  have hsame := (windowIdentity_inj heq).2
  omega

/-- A file whose tree is walked is chunked, and its identities are those of its path. -/
theorem chunkSource_ok
    {file : RelativePath × String}
    (hparse : ∀ error, interpreter.parse file.2 ≠ .raises error)
    (hwalk : ∀ module, moduleOf interpreter file = some module →
      depth module ≤ interpreter.frames) :
    ∃ chunks, chunkSource interpreter file.1 file.2 = .ok chunks ∧
      (∀ chunk ∈ chunks, FileIdentity interpreter file chunk.identity) ∧
      ((chunks.map CodeChunk.identity).Nodup ↔
        ∀ module, moduleOf interpreter file = some module → (namePaths [] module).Nodup) := by
  unfold FileIdentity
  cases hmodule : moduleOf interpreter file with
  | none =>
      refine ⟨_, chunkSource_of_no_module hmodule hparse, ?_, ?_⟩
      · intro chunk hchunk
        obtain ⟨start, stop, hidentity, _⟩ := mem_chunkWindows hchunk
        exact ⟨start, stop, hidentity⟩
      · exact iff_of_true (nodup_chunkWindows file.1 file.2) (fun _ h => nomatch h)
  | some module =>
      obtain ⟨chunks, hchunks, hidentities⟩ := walkPython_ok interpreter file.1
        (PyStr.ofString file.2).splitlines interpreter.frames [] module (hwalk module hmodule)
      refine ⟨chunks, (chunkSource_of_module hmodule).trans hchunks, ?_, ?_⟩
      · intro chunk hchunk
        have hmem := List.mem_map_of_mem (f := CodeChunk.identity) hchunk
        rw [hidentities] at hmem
        obtain ⟨names, hnames, heq⟩ := List.mem_map.mp hmem
        exact ⟨names, hnames, heq.symm⟩
      · rw [hidentities]
        constructor
        · intro hnodup other hother
          cases hother
          exact hnodup.of_map _
        · intro hnames
          refine List.Nodup.map_on ?_ (hnames module rfl)
          intro names hmem names' hmem' heq
          exact (definitionIdentity_inj (namePaths_ne [] _ names hmem)
            (namePaths_ne [] _ names' hmem') heq).2

theorem chunkSource_error
    {file : RelativePath × String} {module : AstNode}
    (hmodule : moduleOf interpreter file = some module)
    (hdeep : interpreter.frames < depth module) :
    ∃ error, chunkSource interpreter file.1 file.2 = .error error := by
  rw [chunkSource_of_module hmodule]
  exact walkPython_error interpreter file.1 _ _ _ module hdeep

/-- The chunks of files with distinct paths. -/
theorem chunkFiles_ok
    {files : List (RelativePath × String)}
    (hparse : Parses interpreter files) (hwalk : Walkable interpreter files)
    (hpaths : (files.map Prod.fst).Nodup) :
    ∃ chunks, chunkFiles interpreter files = .ok chunks ∧
      (∀ chunk ∈ chunks, ∃ file ∈ files, FileIdentity interpreter file chunk.identity) ∧
      ((chunks.map CodeChunk.identity).Nodup ↔ Unambiguous interpreter files) := by
  induction files with
  | nil => exact ⟨[], rfl, nofun, iff_of_true List.nodup_nil (fun _ h => nomatch h)⟩
  | cons file rest ih =>
      rw [List.map_cons, List.nodup_cons] at hpaths
      obtain ⟨first, hfirst, hfirstIds, hfirstNodup⟩ :=
        chunkSource_ok (hparse file (List.mem_cons_self ..)) (hwalk file (List.mem_cons_self ..))
      obtain ⟨later, hlater, hlaterIds, hlaterNodup⟩ :=
        ih (fun f hf => hparse f (List.mem_cons_of_mem _ hf))
          (fun f hf => hwalk f (List.mem_cons_of_mem _ hf)) hpaths.2
      refine ⟨first ++ later, ?_, ?_, ?_⟩
      · simp only [chunkFiles, hfirst, hlater, ok_bind]
        rfl
      · intro chunk hchunk
        rcases List.mem_append.mp hchunk with hmem | hmem
        · exact ⟨file, List.mem_cons_self .., hfirstIds chunk hmem⟩
        · obtain ⟨other, hother, hid⟩ := hlaterIds chunk hmem
          exact ⟨other, List.mem_cons_of_mem _ hother, hid⟩
      · -- The identities of different files are different, since their paths are.
        have hdisjoint : List.Disjoint (first.map CodeChunk.identity)
            (later.map CodeChunk.identity) := by
          intro identity hmem hmem'
          obtain ⟨chunk, hchunk, rfl⟩ := List.mem_map.mp hmem
          obtain ⟨chunk', hchunk', heq⟩ := List.mem_map.mp hmem'
          obtain ⟨other, hother, hid⟩ := hlaterIds chunk' hchunk'
          rw [heq] at hid
          have hpath := (hfirstIds chunk hchunk).path_eq hid
          exact hpaths.1 (hpath ▸ List.mem_map_of_mem hother)
        rw [List.map_append, List.nodup_append', hfirstNodup, hlaterNodup]
        unfold Unambiguous
        rw [List.forall_mem_cons]
        exact ⟨fun h => ⟨h.1, h.2.1⟩, fun h => ⟨h.1, h.2, hdisjoint⟩⟩

theorem chunkFiles_error
    {files : List (RelativePath × String)}
    (hnot : ¬ Walkable interpreter files) :
    ∃ error, chunkFiles interpreter files = .error error := by
  induction files with
  | nil =>
      refine absurd ?_ hnot
      intro file hfile
      cases hfile
  | cons file rest ih =>
      unfold Walkable at hnot
      rw [List.forall_mem_cons, not_and_or] at hnot
      simp only [chunkFiles]
      cases hfirst : chunkSource interpreter file.1 file.2 with
      | error error => exact ⟨error, rfl⟩
      | ok first =>
          rcases hnot with hdeep | hrest
          · push Not at hdeep
            obtain ⟨module, hmodule, hdepth⟩ := hdeep
            obtain ⟨error, herror⟩ := chunkSource_error hmodule hdepth
            rw [hfirst] at herror
            cases herror
          · obtain ⟨error, herror⟩ := ih hrest
            exact ⟨error, by rw [herror]; rfl⟩

/-- The files that are indexed have distinct paths. -/
theorem nodup_indexedFiles
    (leftOut : LeftOut) (tree : SourceTree) :
    ((indexedFiles leftOut tree).map Prod.fst).Nodup := by
  have hsublist : ((indexedFiles leftOut tree).map Prod.fst).Sublist
      (tree.files.map Prod.fst) := by
    unfold indexedFiles
    rw [List.map_filterMap]
    induction tree.files with
    | nil => exact List.Sublist.refl _
    | cons file rest ih =>
        rw [List.filterMap_cons, List.map_cons]
        cases indexedSource leftOut file.1 file.2 with
        | none => exact ih.cons _
        | some source => exact ih.cons_cons _
  exact hsublist.nodup tree.nodup

end Tree

end Retrieval
end PrReviewer
