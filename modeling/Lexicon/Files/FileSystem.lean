import Lexicon.Entries
import Lexicon.Fault
import Lexicon.Files.FilePath

/-!
# Files

A tree of files and directories, and the directory that relative paths start from.
-/

namespace Lexicon

/-- A file with its contents, or a directory with what is in it. -/
inductive FileTree
  | file (contents : String)
  | directory (entries : List (String × FileTree))
  deriving Repr, Inhabited

namespace FileTree

/-- A directory with nothing in it. -/
def empty : FileTree :=
  .directory []

/-- What is under a name; nothing is under a name in a file. -/
def child? : FileTree → String → Option FileTree
  | .directory entries, name => Entries.find? entries name
  | .file _, _ => none

/-- What a list of names leads to. -/
def get? (t : FileTree) : List String → Option FileTree
  | [] => some t
  | name :: rest => (t.child? name).bind (get? · rest)

/-- A tree with something else where a list of names leads; directories on the way are made. -/
def set (t : FileTree) (names : List String) (node : FileTree) : FileTree :=
  match names, t with
  | [], _ => node
  | name :: rest, .directory entries =>
    let child := (Entries.find? entries name).getD empty
    .directory (Entries.insert entries name (child.set rest node))
  | name :: rest, .file _ => .directory [(name, empty.set rest node)]

/-- The greatest length of a name in bytes. -/
def maxNameLength : Nat := 255

/-- The names that lead from the root to where the parts of a path lead from `here`. -/
def resolve (t : FileTree) : List String → List String → Except FileErrorKind (List String)
  | here, [] => .ok here
  | here, part :: rest =>
    match t.get? here with
    | some (.directory entries) =>
      if part.utf8ByteSize > maxNameLength then .error .nameTooLong
      else if part = "" ∨ part = "." then resolve t here rest
      else if part = ".." then resolve t here.dropLast rest
      else if Entries.has entries part then resolve t (here ++ [part]) rest
      else .error .notFound
    | _ => .error .notADirectory

end FileTree

/-- A tree of files and the directory that relative paths start from. -/
structure FileSystem where
  tree : FileTree := .empty
  directory : List String := []
  deriving Repr, Inhabited

namespace FileSystem

/-- The names that lead from the root to where a path leads. -/
def resolve (fs : FileSystem) (p : FilePath) : Except FileErrorKind (List String) :=
  fs.tree.resolve (if p.root = "" then fs.directory else []) p.parts

/-- What a path leads to. -/
def find (fs : FileSystem) (p : FilePath) : Except FileErrorKind FileTree := do
  match fs.tree.get? (← fs.resolve p) with
  | some node => return node
  | none => throw .notFound

/-- An error at a path. -/
def errorAt {α : Type} (p : FilePath) (result : Except FileErrorKind α) : Except Fault α :=
  result.mapError fun kind => .file ⟨kind, p.text⟩

/-- Whether an error means no more than that nothing is there. -/
def isAbsence : FileErrorKind → Bool
  | .notFound | .notADirectory => true
  | _ => false

/-- Whether what a path leads to satisfies a predicate; nothing does if nothing is there. -/
def test (fs : FileSystem) (p : FilePath) (holds : FileTree → Bool) : Except Fault Bool :=
  match fs.find p with
  | .ok node => .ok (holds node)
  | .error kind => if isAbsence kind then .ok false else .error (.file ⟨kind, p.text⟩)

/-- The contents of the file that a path leads to. -/
def read (fs : FileSystem) (p : FilePath) : Except Fault String :=
  errorAt p do
    match ← fs.find p with
    | .file contents => return contents
    | .directory _ => throw .isADirectory

/-- Puts something where a path leads; the directory that contains it must exist. -/
def put (fs : FileSystem) (p : FilePath) (node : FileTree) : Except FileErrorKind FileSystem := do
  let parent ← fs.resolve p.parent
  match fs.tree.get? parent with
  | some (.directory _) =>
    let name := p.parts.getLastD ""
    if name.utf8ByteSize > FileTree.maxNameLength then throw .nameTooLong
    return { fs with tree := fs.tree.set (parent ++ [name]) node }
  | _ => throw .notADirectory

/-- Makes a directory unless there is one; what contains it must exist. -/
def makeDirectory (fs : FileSystem) (p : FilePath) : Except FileErrorKind FileSystem :=
  match fs.find p with
  | .ok (.directory _) => .ok fs
  | .ok (.file _) => .error .alreadyExists
  | .error _ => fs.put p .empty

/-- Makes a directory, and before it whatever is missing on the way to it. The first argument bounds
the number of directories that may be missing. -/
def makeDirectories : Nat → FileSystem → FilePath → Except Fault FileSystem
  | 0, fs, p => errorAt p (fs.makeDirectory p)
  | missing + 1, fs, p =>
    match fs.makeDirectory p with
    | .error .notFound => do
      let fs ← makeDirectories missing fs p.parent
      errorAt p (fs.makeDirectory p)
    | result => errorAt p result

/-- Writes a file, after making the directory that contains it. -/
def write (fs : FileSystem) (p : FilePath) (contents : String) : Except Fault FileSystem := do
  let fs ← makeDirectories (p.parts.length + 1) fs p.parent
  match fs.find p with
  | .ok (.directory _) => throw (.file ⟨.isADirectory, p.text⟩)
  | _ => errorAt p (fs.put p (.file contents))

end FileSystem

namespace FileTree

/-- Whether something is a file. -/
def isFile : FileTree → Bool
  | .file _ => true
  | .directory _ => false

/-- Whether something is a directory. -/
def isDirectory : FileTree → Bool
  | .file _ => false
  | .directory _ => true

mutual

/-- The paths of all files with their contents. -/
def files : FileTree → List (List String × String)
  | .file contents => [([], contents)]
  | .directory entries => filesOfEntries entries

/-- The paths of all files in the entries of a directory. -/
def filesOfEntries : List (String × FileTree) → List (List String × String)
  | [] => []
  | (name, node) :: rest =>
    (files node).map (fun f => (name :: f.1, f.2)) ++ filesOfEntries rest

end

mutual

/-- The number of characters in all files. -/
def size : FileTree → Nat
  | .file contents => contents.length
  | .directory entries => sizeOfEntries entries

/-- The number of characters in the files of a directory. -/
def sizeOfEntries : List (String × FileTree) → Nat
  | [] => 0
  | (_, node) :: rest => size node + sizeOfEntries rest

end

end FileTree

end Lexicon
