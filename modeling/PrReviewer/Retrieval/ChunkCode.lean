import Mathlib.Data.List.Basic
import Mathlib.Tactic
import PrReviewer.Lib.Text

/-!
# Retrieval chunks

retrieval/chunk_code.py.  A Python file is cut along its definitions, any other file into
overlapping windows of lines; each chunk has an identity made of the path of its file.
A name of a file may hold lone surrogates, which `os.walk` puts where a byte is not UTF-8.

`ast.parse`, the depth of calls the interpreter admits, `str.lower` and SHA-256 are
parameters.  A syntax tree is read as far as `_walk_python` reads it: a node is a
definition or not, and has child nodes.
-/

namespace PrReviewer
namespace Retrieval

open Lib

/-- `sep.join(parts)` with a one-character separator. -/
def joinParts (sep : Char) (parts : List String) : String :=
  String.ofList ([sep].intercalate (parts.map String.toList))

/-- A file of a tree, relative to its root. -/
structure RelativePath where
  directories : List PyStr
  name : PyStr
  plain : ∀ part ∈ directories ++ [name],
    part.points ≠ [] ∧ pointOf '/' ∉ part.points ∧ pointOf '\x00' ∉ part.points
deriving DecidableEq

def RelativePath.parts (path : RelativePath) : List PyStr :=
  path.directories ++ [path.name]

/-- `relative_to(root).as_posix()`. -/
def RelativePath.text (path : RelativePath) : PyStr :=
  PyStr.join ⟨[pointOf '/']⟩ path.parts

/-- The part of a name from its last dot on. -/
def fromLastDot (name : List CodePoint) : List CodePoint :=
  pointOf '.' :: (name.reverse.takeWhile (· ≠ pointOf '.')).reverse

/-- `Path(name).suffix`: a dot at the start or at the end of the name begins no suffix. -/
def pathSuffix (name : PyStr) : PyStr :=
  let suffix := fromLastDot name.points
  if suffix.length < name.points.length ∧ 1 < suffix.length then ⟨suffix⟩ else ⟨[]⟩

/-- An identifier of the language. -/
structure Identifier where
  text : String
  text_ne : text ≠ ""
  plain : '.' ∉ text.toList ∧ ':' ∉ text.toList
  noDigit : ∀ c, text.toList.head? = some c → c.isDigit = false

theorem Identifier.eq_of_text
    {name name' : Identifier}
    (htext : name.text = name'.text) :
    name = name' := by
  cases name
  cases name'
  cases htext
  rfl

instance : DecidableEq Identifier :=
  fun name name' => decidable_of_iff (name.text = name'.text) ⟨Identifier.eq_of_text, congrArg _⟩

/-- A `FunctionDef`, `AsyncFunctionDef` or `ClassDef`; the lines of a node are C `int`s. -/
structure Definition where
  name : Identifier
  lineno : Nat
  decoratorLines : List Nat
  endLineno : Option Nat
  lines_pos : 0 < lineno ∧ ∀ line ∈ decoratorLines, 0 < line
  lines_le : lineno ≤ endLineno.getD lineno
  lines_lt : endLineno.getD lineno < 2147483648

/-- A node with its child nodes, in the order of `ast.iter_child_nodes`. -/
inductive AstNode where
  | mk (definition : Option Definition) (children : List AstNode)

/-- What `ast.parse` returns or raises. -/
inductive Parsed where
  | tree (module : AstNode)
  | syntaxError
  | raises (error : PyException)

/-- The interpreter and its libraries. -/
structure Interpreter where
  parse : String → Parsed
  /-- The nested calls of `_walk_python` the interpreter admits. -/
  frames : Nat
  lower : PyStr → PyStr
  /-- No surrogate is the lower case of a character. -/
  lower_text : ∀ text, text.text?.isSome = true → (lower text).text?.isSome = true
  /-- `hashlib.sha256(content.encode("utf-8")).hexdigest()`. -/
  sha256 : PyStr → String

inductive ChunkingStrategy where
  | astPython
  | lineWindow
deriving DecidableEq, Repr

structure CodeChunk where
  filePath : PyStr
  language : PyStr
  startLine : Nat
  endLine : Nat
  content : PyStr
  contentHash : String
  identity : PyStr
  strategy : ChunkingStrategy
  symbolName : Option String
deriving DecidableEq

def windowSizeLines : Nat := 40

def windowOverlapLines : Nat := 10

def languageBySuffix : List (PyStr × PyStr) :=
  [(".py", "python"), (".js", "javascript"), (".ts", "typescript"), (".tsx", "typescript"),
    (".jsx", "javascript"), (".md", "markdown"), (".json", "json"), (".rs", "rust"),
    (".go", "go")].map (fun entry => (.ofString entry.1, .ofString entry.2))

/-- `suffix.removeprefix(".")`. -/
def removeDot (suffix : PyStr) : PyStr :=
  match suffix.points with
  | c :: rest => if c = pointOf '.' then ⟨rest⟩ else suffix
  | [] => suffix

/-- `_slice_lines`. -/
def sliceLines (lines : List PyStr) (startLine endLine : Nat) : PyStr :=
  PyStr.join ⟨[newline]⟩ ((lines.take endLine).drop (startLine - 1))

/-- `_node_line_range`. -/
def nodeLineRange (node : Definition) : Nat × Nat :=
  (node.decoratorLines.foldl min node.lineno, node.endLineno.getD node.lineno)

section Chunks

variable (interpreter : Interpreter)

/-- `_language_for`. -/
def languageFor (path : RelativePath) : PyStr :=
  let suffix := interpreter.lower (pathSuffix path.name)
  match languageBySuffix.lookup suffix with
  | some language => language
  | none => if suffix.points ≠ [] then removeDot suffix else .ofString "text"

/-- `_make_chunk`. -/
def makeChunk (path : RelativePath) (startLine endLine : Nat) (content : PyStr)
    (strategy : ChunkingStrategy) (identity : PyStr) (symbolName : Option String) :
    CodeChunk where
  filePath := path.text
  language := languageFor interpreter path
  startLine := startLine
  endLine := endLine
  content := content
  contentHash := interpreter.sha256 content
  identity := identity
  strategy := strategy
  symbolName := symbolName

/-- The chunk of the window that starts at a line. -/
def windowChunk (path : RelativePath) (lines : List PyStr) (start : Nat) : CodeChunk :=
  let stop := min (start + windowSizeLines - 1) lines.length
  makeChunk interpreter path start stop (sliceLines lines start stop) .lineWindow
    (path.text ++ .ofString ":window:" ++ decimal start ++ .ofString ":" ++ decimal stop) none

/-- The loop of `_chunk_windows`. -/
def windowsFrom (path : RelativePath) (lines : List PyStr) (start : Nat) : List CodeChunk :=
  if start ≤ lines.length then
    let chunk := windowChunk interpreter path lines start
    if lines.length ≤ chunk.endLine then
      [chunk]
    else
      chunk :: windowsFrom path lines (start + (windowSizeLines - windowOverlapLines))
  else
    []
termination_by lines.length + 1 - start
decreasing_by
  simp only [windowSizeLines, windowOverlapLines]
  omega

/-- `_chunk_windows`. -/
def chunkWindows (path : RelativePath) (source : String) : List CodeChunk :=
  let lines := (PyStr.ofString source).splitlines
  if lines.isEmpty then [] else windowsFrom interpreter path lines 1

/-- The dotted name of a definition below a prefix. -/
def qualifiedName (outer : String) (name : Identifier) : String :=
  if outer ≠ "" then outer ++ "." ++ name.text else name.text

/-- The chunk of a definition. -/
def definitionChunk (path : RelativePath) (lines : List PyStr) (qualified : String)
    (node : Definition) : CodeChunk :=
  let range := nodeLineRange node
  makeChunk interpreter path range.1 range.2 (sliceLines lines range.1 range.2) .astPython
    (path.text ++ .ofString "::" ++ .ofString qualified) (some qualified)

mutual

/-- `_walk_python`; a call needs a frame. -/
def walkPython (path : RelativePath) (lines : List PyStr) (frames : Nat) (outer : String) :
    AstNode → Except PyException (List CodeChunk)
  | .mk _ children =>
      match frames with
      | 0 => .error .recursionError
      | frames + 1 => walkChildren path lines frames outer children

/-- The loop over the child nodes. -/
def walkChildren (path : RelativePath) (lines : List PyStr) (frames : Nat) (outer : String) :
    List AstNode → Except PyException (List CodeChunk)
  | [] => .ok []
  | .mk definition children :: rest =>
      match definition with
      | some node => do
          let qualified := qualifiedName outer node.name
          let nested ← walkPython path lines frames qualified (.mk definition children)
          let later ← walkChildren path lines frames outer rest
          return definitionChunk interpreter path lines qualified node :: (nested ++ later)
      | none => do
          let nested ← walkPython path lines frames outer (.mk definition children)
          let later ← walkChildren path lines frames outer rest
          return nested ++ later

end

/-- `chunk_source`, with `_chunk_python`. -/
def chunkSource (path : RelativePath) (source : String) : Except PyException (List CodeChunk) :=
  if pathSuffix path.name = .ofString ".py" then
    match interpreter.parse source with
    | .tree module =>
        walkPython interpreter path (PyStr.ofString source).splitlines interpreter.frames "" module
    | .syntaxError => .ok (chunkWindows interpreter path source)
    | .raises error => .error error
  else
    .ok (chunkWindows interpreter path source)

/-- What a file of the tree holds. -/
inductive FileData where
  | text (source : String)
  | undecodable
  /-- A symbolic link, or no regular file. -/
  | special

/-- The files of a tree, in the order of `os.walk`. -/
structure SourceTree where
  files : List (RelativePath × FileData)
  nodup : (files.map Prod.fst).Nodup

def skipDirectories : List PyStr :=
  [".git", "__pycache__"].map PyStr.ofString

/-- The paths `chunk_tree` leaves out. -/
structure LeftOut where
  generatedPaths : List PyStr
  ignoredPaths : List PyStr

/-- The source of a file that is indexed. -/
def indexedSource (leftOut : LeftOut) (path : RelativePath) (data : FileData) : Option String :=
  if ∃ directory ∈ path.directories, directory ∈ skipDirectories then
    none
  else
    match data with
    | .text source =>
        if path.text ∈ leftOut.generatedPaths ∨ path.text ∈ leftOut.ignoredPaths then none
        else if '\x00' ∈ source.toList then none
        else some source
    | _ => none

/-- The files that are indexed, with their sources. -/
def indexedFiles (leftOut : LeftOut) (tree : SourceTree) : List (RelativePath × String) :=
  tree.files.filterMap (fun file =>
    (indexedSource leftOut file.1 file.2).map (fun source => (file.1, source)))

/-- The loop of `chunk_tree`. -/
def chunkFiles : List (RelativePath × String) → Except PyException (List CodeChunk)
  | [] => .ok []
  | file :: rest => do
      let first ← chunkSource interpreter file.1 file.2
      let later ← chunkFiles rest
      return first ++ later

/-- `chunk_tree`. -/
def chunkTree (leftOut : LeftOut) (tree : SourceTree) : Except PyException (List CodeChunk) :=
  chunkFiles interpreter (indexedFiles leftOut tree)

end Chunks

end Retrieval
end PrReviewer
