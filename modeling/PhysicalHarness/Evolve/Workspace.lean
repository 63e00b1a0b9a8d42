import PhysicalHarness.Lib.Fallible
import PhysicalHarness.Python.Value

namespace PhysicalHarness
namespace Evolve

open Python Fallible

/-!
# The working copy

The agent edits a copy of the card's package.  Its tools name a file by any path; the path
is resolved, and a file outside the copy, a protected file and a file that is no Python
source are refused.  Before a run the protected files are compared with the installed
card's, and the run imports the package from the copy.
-/

abbrev Path := List String

/-- The files and the directories, by their absolute paths. -/
structure Storage (β : Type) where
  files : Path → Option β
  dirs : Path → Bool

inductive ToolError where
  | valueError (message : String)
  | osError
  | decodeError
  deriving DecidableEq

variable {β : Type}

/-! ## Text -/

/-- `text.split(mark)`. -/
def splitAt (mark : Char) : List Char → List (List Char)
  | [] => [[]]
  | char :: rest =>
      if char = mark then [] :: splitAt mark rest
      else match splitAt mark rest with
        | piece :: others => (char :: piece) :: others
        | [] => [[char]]

/-- `text.count(old)`; the occurrences do not overlap, and the number is what is left of one. -/
def countOf (old : List Char) : List Char → Nat → Nat
  | [], _ => 0
  | _ :: rest, left + 1 => countOf old rest left
  | char :: rest, 0 =>
      if old.isPrefixOf (char :: rest) then 1 + countOf old rest (old.length - 1) else countOf old rest 0

/-- `text.replace(old, new, 1)`. -/
def replaceFirst (old new : List Char) : List Char → List Char
  | [] => []
  | char :: rest =>
      if old.isPrefixOf (char :: rest) then new ++ (char :: rest).drop old.length
      else char :: replaceFirst old new rest

/-- `len(line) - len(line.lstrip())`. -/
def indent (line : List Char) : Nat := line.length - (lstrip line).length

def hasSuffix (suffix name : String) : Bool := suffix.toList.isSuffixOf name.toList

/-- `"\n".join(lines)`. -/
def joinLines (lines : List (List Char)) : List Char := ['\n'].intercalate lines

/-- `path.mkdir(parents=True, exist_ok=True)`. -/
def mkdir (path : Path) (storage : Storage β) : Except ToolError (Storage β) :=
  if path.inits.any (fun above => (storage.files above).isSome) then .error .osError
  else .ok { storage with dirs := fun dir => dir.isPrefixOf path || storage.dirs dir }

/-- `path.write_bytes(content)`. -/
def writeFile (path : Path) (content : β) (storage : Storage β) : Except ToolError (Storage β) :=
  if storage.dirs path then .error .osError
  else .ok { storage with files := fun file => if file = path then some content else storage.files file }

/-- `shutil.rmtree(path)`. -/
def rmtree (path : Path) (storage : Storage β) : Except ToolError (Storage β) :=
  if storage.dirs path then
    .ok ⟨fun file => if path.isPrefixOf file then none else storage.files file,
      fun dir => !path.isPrefixOf dir && storage.dirs dir⟩
  else .error .osError

/-- `ignore_patterns("__pycache__", "*.pyc")`, of some part of a path. -/
def ignored (rel : Path) : Bool := rel.any (fun part => part == "__pycache__" || hasSuffix ".pyc" part)

/-- `shutil.copytree(source, path)` with these patterns, to a path where nothing is. -/
def copytree (source path : Path) (storage : Storage β) : Except ToolError (Storage β) :=
  if storage.dirs source && !storage.dirs path && (storage.files path).isNone then
    .ok ⟨fun file => if path.isPrefixOf file then
        (if ignored (file.drop path.length) then none
          else storage.files (source ++ file.drop path.length))
        else storage.files file,
      fun dir => (path.isPrefixOf dir && !ignored (dir.drop path.length) &&
        storage.dirs (source ++ dir.drop path.length)) || storage.dirs dir⟩
  else .error .osError

/-! ## The copy -/

/-- The parts of a path under a directory; an absolute path replaces it. -/
def joinPath (dir : Path) (rel : String) : Path :=
  let parts := ((splitAt '/' rel.toList).map String.ofList).filter (fun part => part != "" && part != ".")
  if ['/'].isPrefixOf rel.toList then parts else dir ++ parts

/-- A copy of a card, the installed card, and where the agent may branch from. -/
structure Workspace where
  path : Path
  stock : Path
  points : List (String × Path)

/-- `PROTECTED`. -/
def protectedNames : List String := ["predicates.py", "manifest.toml"]

/-- What the interpreter and the operating system supply: the path that a path leads to, the
bytes of a text, and what is wrong with a source. -/
class Toolbox (β : Type) where
  resolve : Path → Option Path
  encode : String → β
  decode : β → Option String
  syntaxError : String → Option String
  digest : β → String

/-- `p.suffix == ".py"`. -/
def isPython (name : String) : Bool := hasSuffix ".py" name && name != ".py"

def nameOf (path : Path) : String := path.getLast?.getD ""

section

variable [Host] [Toolbox β] (space : Workspace)

def makeRoom (storage : Storage β) : Except ToolError (Storage β) :=
  if storage.dirs space.path || (storage.files space.path).isSome then rmtree space.path storage
  else .ok storage

/-- `Workspace.create`. -/
def create (source : Path) (storage : Storage β) : Except ToolError (Storage β) := do
  let cleared ← makeRoom space storage
  copytree source space.path cleared

/-- `_resolve`. -/
def resolve (β : Type) [Toolbox β] (rel : String) : Except ToolError Path :=
  match Toolbox.resolve β (joinPath space.path rel) with
  | none => .error .osError
  | some path =>
      if space.path.isPrefixOf path && path != space.path then .ok path
      else .error (.valueError ("path must name a file inside the card copy (e.g. " ++ nameOf space.path ++
        "/drivers.py or just drivers.py), got " ++ Host.repr (.str rel)))

def readText (path : Path) (storage : Storage β) : Except ToolError String :=
  match storage.files path with
  | none => .error .osError
  | some content =>
      match Toolbox.decode content with
      | some text => .ok text
      | none => .error .decodeError

/-- `_write`. -/
def writeText (path : Path) (text rel : String) (storage : Storage β) :
    Except ToolError (Storage β × String) :=
  match Toolbox.syntaxError β text with
  | some message => .error (.valueError (rel ++ " would not compile: " ++ message))
  | none => do
      let written ← writeFile path (Toolbox.encode text) storage
      return (written, rel ++ " written (" ++ toString (splitAt '\n' text.toList).length ++ " lines)")

/-- The lines where a retyped snippet stands, indentation aside. -/
def retypedAt (lines old : List (List Char)) : List Nat :=
  if (strip (joinLines old)).isEmpty then []
  else (List.range (lines.length + 1 - old.length)).filter (fun start =>
    decide (((lines.map strip).drop start).take old.length = old.map strip))

def shifted (lines old new : List (List Char)) (start : Nat) : List (List Char) :=
  let first := ((old.map strip).findIdx? (fun line => !line.isEmpty)).getD 0
  let there := indent (lines.getD (start + first) [])
  let here := indent (old.getD first [])
  new.map (fun line =>
    if (strip line).isEmpty then line
    else if here < there then List.replicate (there - here) ' ' ++ line
    else line.drop (min (here - there) (indent line)))

/-- Where the first line of the snippet stands, with the lines around it. -/
def editHint (lines old : List (List Char)) : String :=
  let numbered := fun (index : Nat) =>
    let number := (toString (index + 1)).toList
    List.replicate (4 - number.length) ' ' ++ number ++ ['|', ' '] ++ lines.getD index []
  match (old.map strip).find? (fun line => !line.isEmpty) with
  | none => ""
  | some first =>
      match (lines.map strip).findIdx? (fun line => decide (line = first)) with
      | none => ""
      | some near => " Its first line occurs at line " ++ toString (near + 1) ++ "; the file there reads:\n" ++
          String.ofList (joinLines ((List.range' (near - 3)
            (min lines.length (near + old.length + 3) - (near - 3))).map numbered))

def editText (rel : String) (old new text : List Char) : Except ToolError (List Char) :=
  let count := if old.isEmpty then 0 else countOf old text 0
  let lines := splitAt '\n' text
  let olds := splitAt '\n' old
  if old = new then .error (.valueError "old == new changes nothing")
  else if count = 1 then .ok (replaceFirst old new text)
  else match retypedAt lines olds with
    | [start] => .ok (joinLines (lines.take start ++ shifted lines olds (splitAt '\n' new) start ++
        lines.drop (start + olds.length)))
    | _ => .error (.valueError ("`old` must occur exactly once in " ++ rel ++ "; it occurs " ++
        toString count ++ " times (also ignoring indentation). Copy it verbatim out of a read " ++
        "result, without the `NNNN| ` prefixes." ++ editHint lines olds))

/-- A tool that changes files. -/
inductive ToolCall where
  | edit (path old new : String)
  | write (path content : String)
  | branch (source : String)

/-- `edit`. -/
def edit (rel old new : String) (storage : Storage β) : Except ToolError (Storage β × String) := do
  let path ← resolve space β rel
  if nameOf path ∈ protectedNames then
    .error (.valueError (rel ++ " is frozen (the reward and the stock manifest); edit the drivers instead"))
  else if !isPython (nameOf path) then
    .error (.valueError "only .py files take effect in the copy")
  else do
    let text ← readText path storage
    let edited ← editText rel old.toList new.toList text.toList
    writeText path (String.ofList edited) rel storage

/-- `write`.  The directories stay when the text does not compile. -/
def write (rel content : String) (storage : Storage β) : Storage β × Except ToolError String :=
  match resolve space β rel with
  | .error error => (storage, .error error)
  | .ok path =>
      if nameOf path ∈ protectedNames || !isPython (nameOf path) then
        (storage, .error (.valueError
          "only new/replaced .py files, never predicates.py or manifest.toml"))
      else
        match mkdir path.dropLast storage with
        | .error error => (storage, .error error)
        | .ok made =>
            match writeText path content rel made with
            | .error error => (made, .error error)
            | .ok (written, text) => (written, .ok text)

/-- `branch_from`, and `reset_from` in it.  The copy is gone when there is no source. -/
def branch (source : String) (storage : Storage β) : Storage β × Except ToolError String :=
  match Assoc.get? space.points source with
  | none => (storage, .error (.valueError ("branch.from must be one of " ++
      reprNames (sorted (Assoc.keys space.points)))))
  | some dir =>
      match rmtree space.path storage with
      | .error error => (storage, .error error)
      | .ok cleared =>
          match copytree dir space.path cleared with
          | .error error => (cleared, .error error)
          | .ok copied => (copied, .ok ("copy reset to " ++ source ++ " (" ++ nameOf dir ++
              "); knobs back to the incumbent's. Nothing has been evaluated for this state yet."))

/-- A tool call that fails leaves what it did before it failed. -/
def runTool (storage : Storage β) : ToolCall → Storage β × Except ToolError String
  | .edit rel old new =>
      match edit space rel old new storage with
      | .error error => (storage, .error error)
      | .ok (written, text) => (written, .ok text)
  | .write rel content => write space rel content storage
  | .branch source => branch space source storage

/-- The files after some tool calls, those that fail included. -/
def after (storage : Storage β) (calls : List ToolCall) : Storage β :=
  calls.foldl (fun storage call => (runTool space storage call).1) storage

/-- `protected_ok`. -/
def protectedOk (storage : Storage β) : Option String :=
  protectedNames.findSome? (fun name =>
    match storage.files (space.stock ++ [name]) with
    | none => none
    | some installed =>
        match storage.files (space.path ++ [name]) with
        | some copied =>
            if (Toolbox.digest copied : String) = Toolbox.digest installed then none
            else some (name ++ " differs from the installed card; it is frozen")
        | none => some (name ++ " differs from the installed card; it is frozen"))

end

/-- The file that a module of a package is imported from: a package of that name comes
before a source file. -/
def importFile (package : Path) (module_ : String) (storage : Storage β) : Option β :=
  match storage.files (package ++ [module_, "__init__.py"]) with
  | some content => some content
  | none => storage.files (package ++ [module_ ++ ".py"])

/-- The modules among the protected files. -/
def protectedModules : List String := ["predicates"]

section

variable [Host] [Toolbox β] {space : Workspace}

/-- What a tool changes at most: an unprotected file of the copy, or all of the copy. -/
inductive Effect (space : Workspace) (storage : Storage β) : ToolCall → Storage β → Prop
  | none {call : ToolCall} {next : Storage β} (files : next.files = storage.files)
      (dirs : ∀ dir, storage.dirs dir = true → next.dirs dir = true) : Effect space storage call next
  | edited {rel old new : String} {path : Path} {content : β} {next : Storage β}
      (resolved : resolve space β rel = .ok path) (open_ : nameOf path ∉ protectedNames)
      (files : next.files = fun file => if file = path then some content else storage.files file)
      (dirs : next.dirs = storage.dirs) : Effect space storage (.edit rel old new) next
  | written {rel content : String} {path : Path} {next : Storage β}
      (resolved : resolve space β rel = .ok path) (open_ : nameOf path ∉ protectedNames)
      (compiles : Toolbox.syntaxError β content = none)
      (files : next.files = fun file =>
        if file = path then some (Toolbox.encode content) else storage.files file)
      (dirs : ∀ dir, storage.dirs dir = true → next.dirs dir = true) :
      Effect space storage (.write rel content) next
  | branched {source : String} {dir : Path} {cleared next : Storage β}
      (point : Assoc.get? space.points source = some dir)
      (removed : rmtree space.path storage = .ok cleared)
      (copied : (copytree dir space.path cleared = .ok next) ∨
        (next = cleared ∧ ∃ error, copytree dir space.path cleared = .error error)) :
      Effect space storage (.branch source) next

omit [Host] in
theorem written_of_writeText {path : Path} {text rel message : String} {storage next : Storage β}
    (ran : writeText path text rel storage = .ok (next, message)) :
    Toolbox.syntaxError β text = none ∧
      (next.files = fun file => if file = path then some (Toolbox.encode text) else storage.files file) ∧
      next.dirs = storage.dirs := by
  rw [writeText] at ran
  split at ran
  · cases ran
  · rename_i compiles
    rcases of_bind ran with ⟨written, wrote, same⟩
    cases same
    rw [writeFile] at wrote
    split at wrote
    · cases wrote
    · cases wrote
      exact ⟨compiles, rfl, rfl⟩

end

end Evolve
end PhysicalHarness
